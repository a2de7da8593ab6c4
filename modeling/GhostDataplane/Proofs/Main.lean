import GhostDataplane.Engine.Main
import GhostDataplane.Proofs.Events
import GhostDataplane.Proofs.Inspection
import GhostDataplane.Proofs.SerialSetup

/-!
# What the engine lets through

The fast path and the coprocessors were followed in `Proofs.Pipe` with a verdict
for each packet that is fixed before the run. In the engine the verdict is made
up on the way, from a table that other coprocessors may be filling. The bridge
is that a packet is inspected at most once: a run of the process is a run of the
plain engine for every firewall that agrees with the verdicts given so far
(`Process.simulates`), and a verdict that is new contradicts none of them.

So what holds of the plain engine holds of the process, and it is left to say
what the verdicts are. As long as no set-up adds a rule before its time, the
entries of the table are those of rules in the file; once all set-ups are done
the table is the one that `lpm_setup` makes on its own.
-/

namespace GhostDataplane.Engine

open GhostDataplane.Lib

/-! ## One step -/

section SetCoproc

variable {p : Process} {i j : Nat} {pc : LoopPc}

theorem coproc_setCoproc_self : (p.setCoproc i pc).coproc i = pc :=
  Function.update_self _ _ _

theorem coproc_setCoproc_of_ne (h : j ≠ i) :
    (p.setCoproc i pc).coproc j = p.coproc j :=
  Function.update_of_ne h _ _

end SetCoproc

/-- All that a step can do to a process that is not down. -/
inductive Turn (cfg : Config) (p : Process) :
    ProcessAction → Process → Prop where
  | signal : Turn cfg p .signal { p with kniStop := p.kniStop + 1 }
  | rxCheck {env : Env} (hrx : p.rx = .check) :
      Turn cfg p (.rx env) { p with rx := checkStop p.kniStop .returned }
  | rxBody {env : Env} {world : World} (hrx : p.rx = .body)
      (hworld : world = p.world.step (cfg.setup .forward) (.fast env)) :
      Turn cfg p (.rx env)
        { p with
          world := world
          rx := if world.fast.atHead then .check else .body }
  | rxIdle {env : Env} (hcheck : p.rx ≠ .check) (hbody : p.rx ≠ .body) :
      Turn cfg p (.rx env) p
  | useFreed {i : Nat} {env : Env} {setupEnv : SetupEnv} {block : Nat}
      (hpc : p.coproc i = .setup)
      (huse : block ∈ (p.setups.pc i).uses cfg.file p.setups.shared)
      (hblock : block ∈ p.freed) :
      Turn cfg p (.coproc i env setupEnv) { p with crash := some .freedMemory }
  | fault {i : Nat} {env : Env} {setupEnv : SetupEnv} {pkt : Mbuf}
      {burst : List Mbuf} {fault : Fault} (hpc : p.coproc i = .body)
      (hburst : p.world.coproc i = .process (pkt :: burst))
      (hfault : fwPacketHandler p.table (cfg.bytes pkt) p.stats =
        .error fault) :
      Turn cfg p (.coproc i env setupEnv)
        { p with crash := some (.handler fault) }
  | badFree {i : Nat} {env : Env} {setupEnv : SetupEnv}
      (hpc : p.coproc i = .teardown) :
      Turn cfg p (.coproc i env setupEnv) { p with crash := some .freedMemory }
  | setup {i : Nat} {env : Env} {setupEnv : SetupEnv} {setups : Setups}
      (hpc : p.coproc i = .setup)
      (huses : ∀ block ∈ (p.setups.pc i).uses cfg.file p.setups.shared,
        block ∉ p.freed)
      (hsetups : setups = p.setups.step cfg.file ⟨i, setupEnv⟩) :
      Turn cfg p (.coproc i env setupEnv)
        ({ p with setups := setups }.setCoproc i
          (if (setups.pc i).isFinished then .check else .setup))
  | check {i : Nat} {env : Env} {setupEnv : SetupEnv}
      (hpc : p.coproc i = .check) :
      Turn cfg p (.coproc i env setupEnv)
        (p.setCoproc i (checkStop p.kniStop .teardown))
  | inspect {i : Nat} {env : Env} {setupEnv : SetupEnv} {pkt : Mbuf}
      {burst : List Mbuf} {action : FwAction} {stats : FirewallPktStats}
      (hpc : p.coproc i = .body)
      (hburst : p.world.coproc i = .process (pkt :: burst))
      (hverdict : fwPacketHandler p.table (cfg.bytes pkt) p.stats =
        .ok (action, stats)) :
      Turn cfg p (.coproc i env setupEnv)
        { p with
          world := p.world.step (cfg.setup action) (.coproc i env)
          stats := stats
          inspected :=
            Function.update p.inspected pkt (some (action, p.settled)) }
  | pass {i : Nat} {env : Env} {setupEnv : SetupEnv} {world : World}
      (hpc : p.coproc i = .body)
      (hburst : (p.world.coproc i).burst = [])
      (hworld : world = p.world.step (cfg.setup .forward) (.coproc i env)) :
      Turn cfg p (.coproc i env setupEnv)
        ({ p with world := world }.setCoproc i
          (if (world.coproc i).atHead then .check else .body))
  | teardown {i : Nat} {env : Env} {setupEnv : SetupEnv} {blocks : List Nat}
      (hpc : p.coproc i = .teardown)
      (hblocks : p.setups.shared.freeList = some blocks)
      (hfresh : ∀ block ∈ blocks, block ∉ p.freed) :
      Turn cfg p (.coproc i env setupEnv)
        ({ p with freed := p.freed ++ blocks }.setCoproc i .returned)
  | idle {i : Nat} {env : Env} {setupEnv : SetupEnv}
      (hpc : p.coproc i = .returned) :
      Turn cfg p (.coproc i env setupEnv) p

section Turn

variable {cfg : Config} {p : Process} {i : Nat} {env : Env}
  {setupEnv : SetupEnv}

theorem not_any_contains {blocks freed : List Nat}
    (h : ¬ blocks.any (freed.contains ·) = true) :
    ∀ block ∈ blocks, block ∉ freed := by
  simpa using h

theorem rxStep_turn : Turn cfg p (.rx env) (rxStep cfg env p) := by
  unfold rxStep
  split
  · next h => exact .rxCheck h
  · next h => exact .rxBody h rfl
  all_goals next h => exact .rxIdle (by simp [h]) (by simp [h])

theorem coprocBody_turn (hpc : p.coproc i = .body) :
    Turn cfg p (.coproc i env setupEnv) (coprocBody cfg i env p) := by
  unfold coprocBody
  split
  · next pkt burst hburst =>
      split
      · next fault hfault => exact .fault hpc hburst hfault
      · next action stats hverdict => exact .inspect hpc hburst hverdict
  · next hburst =>
      refine .pass hpc ?_ rfl
      cases h : p.world.coproc i with
      | start => rfl
      | process burst =>
          cases burst with
          | nil => rfl
          | cons pkt burst => exact absurd h (hburst pkt burst)

theorem coprocTeardown_turn (hpc : p.coproc i = .teardown) :
    Turn cfg p (.coproc i env setupEnv) (coprocTeardown i p) := by
  unfold coprocTeardown
  split
  · exact .badFree hpc
  · next blocks hblocks =>
      split
      · exact .badFree hpc
      · next hfresh => exact .teardown hpc hblocks (not_any_contains hfresh)

theorem coprocLoopStep_turn :
    Turn cfg p (.coproc i env setupEnv)
      (coprocLoopStep cfg i env setupEnv p) := by
  unfold coprocLoopStep
  split
  · next hpc =>
      unfold coprocSetup
      split
      · next huses =>
          obtain ⟨block, huse, hblock⟩ := List.any_eq_true.mp huses
          exact .useFreed hpc huse (List.contains_iff_mem.mp hblock)
      · next huses => exact .setup hpc (not_any_contains huses) rfl
  · next hpc => exact .check hpc
  · next hpc => exact coprocBody_turn hpc
  · next hpc => exact coprocTeardown_turn hpc
  · next hpc => exact .idle hpc

/-- A process that is down stays as it is. -/
theorem process_step_cases (cfg : Config) (p : Process) (a : ProcessAction) :
    (p.down = true ∧ p.step cfg a = p) ∨
    (p.down = false ∧ Turn cfg p a (p.step cfg a)) := by
  unfold Process.step
  split
  · next hdown => exact .inl ⟨hdown, rfl⟩
  · next hdown =>
      refine .inr ⟨Bool.eq_false_iff.mpr hdown, ?_⟩
      cases a with
      | signal => exact .signal
      | rx env => exact rxStep_turn
      | coproc i env setupEnv => exact coprocLoopStep_turn

end Turn

/-! ## The plain engine -/

/-- The firewall of the plain engine says what was said so far. -/
structure Follows (cfg : Config) (p : Process) (setup : Setup) : Prop where
  nf : setup.disableNf = false
  bytes : setup.bytes = cfg.bytes
  verdict : ∀ pkt action settled, p.inspected pkt = some (action, settled) →
    setup.fwPacketHandler pkt = action

/-- There always is one. -/
def Process.oracle (cfg : Config) (p : Process) : Setup where
  disableNf := false
  bytes := cfg.bytes
  fwPacketHandler pkt := ((p.inspected pkt).map Prod.fst).getD .forward

theorem oracle_follows (cfg : Config) (p : Process) :
    Follows cfg p (p.oracle cfg) where
  nf := rfl
  bytes := rfl
  verdict pkt action settled h := by simp [Process.oracle, h]

section Congr

variable {cfg : Config} {setup : Setup} {w : World} {env : Env} {i : Nat}

/-- The fast path does not ask the firewall. -/
theorem step_fast_congr (hnf : setup.disableNf = false)
    (hbytes : setup.bytes = cfg.bytes) (action : FwAction) :
    w.step (cfg.setup action) (.fast env) = w.step setup (.fast env) := by
  have hstep :
      fastStep (cfg.setup action) kniKthread kniKthread env w.fast w.state =
      fastStep setup kniKthread kniKthread env w.fast w.state := by
    unfold fastStep
    rw [hnf, hbytes]
    rfl
  rw [World.step, World.step, hstep]

/-- A coprocessor asks it about the packet that is next. -/
theorem step_coproc_congr {action : FwAction}
    (h : ∀ pkt burst, w.coproc i = .process (pkt :: burst) →
      setup.fwPacketHandler pkt = action) :
    w.step (cfg.setup action) (.coproc i env) =
      w.step setup (.coproc i env) := by
  have hstep : coprocStep (cfg.setup action) env i (w.coproc i) w.state =
      coprocStep setup env i (w.coproc i) w.state := by
    cases hpc : w.coproc i with
    | start => rfl
    | process burst =>
        cases burst with
        | nil => rfl
        | cons pkt burst =>
            have hret : processPacket (cfg.setup action) pkt =
                processPacket setup pkt := by
              rw [processPacket, processPacket, h pkt burst hpc]
              rfl
            rw [coprocStep, coprocStep, hret]
  rw [World.step, World.step, hstep]

end Congr

/-! ### The simulation -/

/-- The process is followed by the plain engine, and knows what it inspected. -/
structure Simulated (cfg : Config) (p : Process) : Prop where
  reachable : ∀ setup, Follows cfg p setup → Reachable setup p.world
  noted : ∀ pkt, p.inspected pkt = none ↔ inspections pkt p.world.state.log = []

section Simulated

variable {cfg : Config} {p p' : Process} {i : Nat} {env : Env} {pkt : Mbuf}
  {burst : List Mbuf}

theorem simulated_start : Simulated cfg .start :=
  ⟨fun _ _ => .init rfl, fun _ => iff_of_true rfl rfl⟩

/-- Neither the packets nor the verdicts changed. -/
theorem Simulated.congr (h : Simulated cfg p) (hworld : p'.world = p.world)
    (hinspected : p'.inspected = p.inspected) : Simulated cfg p' := by
  refine ⟨fun setup hf => ?_, fun pkt => ?_⟩
  · rw [hworld]
    exact h.reachable setup ⟨hf.nf, hf.bytes, hinspected ▸ hf.verdict⟩
  · rw [hworld, hinspected]
    exact h.noted pkt

/-- The packets moved and none was inspected. -/
theorem Simulated.move {a : Action} (h : Simulated cfg p)
    (hinspected : p'.inspected = p.inspected)
    (hpromised : ∀ setup, Follows cfg p setup → promised setup p.world a)
    (hstep : ∀ setup, Follows cfg p setup → p'.world = p.world.step setup a)
    (hlog : ∀ pkt, inspections pkt p'.world.state.log =
      inspections pkt p.world.state.log) : Simulated cfg p' := by
  refine ⟨fun setup hf => ?_, fun pkt => ?_⟩
  · have hf' : Follows cfg p setup := ⟨hf.nf, hf.bytes, hinspected ▸ hf.verdict⟩
    rw [hstep setup hf']
    exact .step (h.reachable setup hf') (hpromised setup hf') rfl
  · rw [hinspected, hlog]
    exact h.noted pkt

/-- A packet that a coprocessor comes to has no verdict yet. -/
theorem Simulated.fresh (h : Simulated cfg p)
    (hburst : p.world.coproc i = .process (pkt :: burst)) :
    p.inspected pkt = none := by
  have hreach := h.reachable _ (oracle_follows cfg p)
  have hmem : pkt ∈ p.world.pipe.bank (.inspecting i) := by
    show pkt ∈ p.world.bank (.inspecting i)
    rw [bank_inspecting, hburst]
    exact List.mem_cons_self
  exact (h.noted pkt).mpr ((inspected_of_reachable hreach).fits _ pkt hmem).2.2

theorem Simulated.inspect {action : FwAction} {settled : Bool}
    (h : Simulated cfg p) (hi : i < kniKthread)
    (hburst : p.world.coproc i = .process (pkt :: burst))
    (hworld : p'.world = p.world.step (cfg.setup action) (.coproc i env))
    (hinspected : p'.inspected =
      Function.update p.inspected pkt (some (action, settled))) :
    Simulated cfg p' := by
  have hfresh := h.fresh hburst
  refine ⟨fun setup hf => ?_, fun pkt' => ?_⟩
  · -- The new verdict contradicts no earlier one, so the firewall agreed
    -- before.
    have hpkt : setup.fwPacketHandler pkt = action :=
      hf.verdict pkt action settled (by rw [hinspected, Function.update_self])
    have hf' : Follows cfg p setup := by
      refine ⟨hf.nf, hf.bytes, fun pkt' action' settled' h' => ?_⟩
      refine hf.verdict pkt' action' settled' ?_
      rw [hinspected, Function.update_of_ne, h']
      rintro rfl
      rw [hfresh] at h'
      cases h'
    have hcongr : p.world.step (cfg.setup action) (.coproc i env) =
        p.world.step setup (.coproc i env) := by
      refine step_coproc_congr fun pkt' burst' hburst' => ?_
      rw [hburst] at hburst'
      cases hburst'
      exact hpkt
    rw [hworld, hcongr]
    exact .step (a := .coproc i env) (h.reachable setup hf') ⟨hi, hf.nf⟩ rfl
  · have hlog : inspections pkt' p'.world.state.log =
        inspections pkt' p.world.state.log ++
          (if (CoprocPc.process (pkt :: burst)).burst.head? =
          some pkt' then [(i, processPacket (cfg.setup action) pkt')]
            else []) := by
      rw [hworld, ← hburst]
      exact inspections_coprocStep
    rw [hlog, hinspected]
    by_cases heq : pkt' = pkt
    · rw [heq, Function.update_self]
      exact iff_of_false (Option.some_ne_none _) (by simp [CoprocPc.burst])
    · have hne : (CoprocPc.process (pkt :: burst)).burst.head? ≠ some pkt' :=
        fun h => heq (Option.some.inj h).symm
      rw [Function.update_of_ne heq, if_neg hne, List.append_nil]
      exact h.noted pkt'

theorem Simulated.turn {a : ProcessAction} (h : Simulated cfg p)
    (hserved : served cfg p a) (ht : Turn cfg p a p') : Simulated cfg p' := by
  cases ht with
  | signal | rxCheck | useFreed | fault | badFree | setup | check | teardown =>
      exact h.congr rfl rfl
  | rxIdle | idle => exact h
  | @rxBody env world hrx hworld =>
      refine h.move (a := .fast env) rfl (fun setup hf => hserved)
        (fun setup hf => ?_) fun pkt => ?_
      · exact hworld.trans (step_fast_congr hf.nf hf.bytes .forward)
      · show inspections pkt world.state.log = _
        rw [hworld]
        exact inspections_fastStep
  | @inspect i env _ pkt burst action stats hpc hburst hverdict =>
      exact h.inspect hserved hburst rfl rfl
  | @pass i env _ world hpc hburst hworld =>
      refine h.move (a := .coproc i env) rfl (fun setup hf => ⟨hserved, hf.nf⟩)
        (fun setup hf => ?_) fun pkt => ?_
      · refine hworld.trans (step_coproc_congr fun pkt burst hpkt => ?_)
        rw [hpkt] at hburst
        cases hburst
      · show inspections pkt world.state.log = _
        rw [hworld]
        refine inspections_coprocStep.trans ?_
        rw [hburst]
        exact List.append_nil _

theorem simulated_of_reachable (h : p.Reachable cfg) : Simulated cfg p := by
  refine h.invariant (fun p hp => ?_) fun p a p' _ hp hserved hstep => ?_
  · rw [show p = Process.start from hp]
    exact simulated_start
  · rw [show p' = p.step cfg a from hstep]
    rcases process_step_cases cfg p a with ⟨-, heq⟩ | ⟨-, ht⟩
    · rwa [heq]
    · exact hp.turn hserved ht

end Simulated

/-! ## The verdicts -/

section Verdicts

variable {cfg : Config} {p p' : Process}

/-- The set-ups of a process are set-ups. -/
theorem setups_of_reachable {ok : Process → ProcessAction → Prop}
    {ok' : Setups → SetupAction → Prop}
    (hok : ∀ p i env setupEnv, ok p (.coproc i env setupEnv) →
      p.coproc i = .setup → ok' p.setups ⟨i, setupEnv⟩)
    (h : (process cfg).Reach ok p) : (setups cfg.file).Reach ok' p.setups := by
  refine h.invariant (I := fun p => (setups cfg.file).Reach ok' p.setups)
    (fun p hp => ?_) fun p a p' _ hp ha hstep => ?_
  · rw [show p = Process.start from hp]
    exact .init rfl
  · rw [show p' = p.step cfg a from hstep]
    rcases process_step_cases cfg p a with ⟨-, heq⟩ | ⟨-, ht⟩
    · rwa [heq]
    · generalize p.step cfg a = p' at ht
      cases ht with
      | setup hpc huses hsetups => exact .step hp (hok _ _ _ _ ha hpc) hsetups
      | _ => exact hp

theorem among_of_reachable (h : p.Reachable cfg) :
    (setups cfg.file).Reach (amongFirst kniKthread) p.setups :=
  setups_of_reachable (fun _ _ _ _ hserved _ => hserved) h

end Verdicts

/-- Packets for port 0: number 0 of 10.0.0.1, the others of 192.167.10.2. What
comes from 10.0.0.0/8 is to be dropped. -/
def tenConfig : Config where
  bytes pkt off :=
    match off with
    | 12 => 0x08
    | 14 => 0x45
    | 26 => if pkt = 0 then 10 else 192
    | 27 => if pkt = 0 then 0 else 167
    | 28 => if pkt = 0 then 0 else 10
    | 29 => if pkt = 0 then 1 else 2
    | 32 => 10
    | 33 => 1
    | _ => 0
  file := [tenDropped]

/-- Nobody stops the engine, the library creates every table, no set-up begins
while another is under way, each has its file loaded and gets its memory, and
what is received is of version 4 if it is routed. -/
def undisturbed (cfg : Config) (p : Process) : ProcessAction → Prop
  | .signal => False
  | .rx env => promised (cfg.setup .forward) p.world (.fast env) ∧
      ∀ pkt ∈ env.burst, nextHop (cfg.setup .forward) pkt ≠ unknownPort →
        ipVersion (cfg.bytes pkt) = 4
  | .coproc i _ setupEnv => i < kniKthread ∧ setupEnv.create = true ∧
      (p.coproc i = .setup → oneAtATime p.setups ⟨i, setupEnv⟩ ∧
        provided p.setups ⟨i, setupEnv⟩)

/-- What an undisturbed process keeps. -/
structure Up (cfg : Config) (p : Process) : Prop where
  crash : p.crash = none
  kniStop : p.kniStop = 0
  freed : p.freed = []
  loop : ∀ i, p.coproc i ≠ .teardown
  created : ∀ i, p.coproc i = .setup ∨ (p.setups.pc i).PastCreate
  version : ∀ pkt ∈ received p.world.state.log,
    nextHop (cfg.setup .forward) pkt ≠ unknownPort →
    ipVersion (cfg.bytes pkt) = 4

section Up

variable {cfg : Config} {p p' : Process}

theorem up_start : Up cfg .start where
  crash := rfl
  kniStop := rfl
  freed := rfl
  loop _ := LoopPc.noConfusion
  created _ := .inl rfl
  version _ h := by cases h

/-- A coprocessor goes on, and its set-up is as far as that needs. -/
theorem Up.setCoproc {i : Nat} {pc : LoopPc} (h : Up cfg p)
    (hpc : pc ≠ .teardown)
    (hcreated : pc = .setup ∨ (p.setups.pc i).PastCreate) :
    Up cfg (p.setCoproc i pc) := by
  refine ⟨h.crash, h.kniStop, h.freed, fun j => ?_, fun j => ?_, h.version⟩
  · by_cases hj : j = i
    · rw [hj, coproc_setCoproc_self]
      exact hpc
    · rw [coproc_setCoproc_of_ne hj]
      exact h.loop j
  · by_cases hj : j = i
    · rw [hj, coproc_setCoproc_self]
      exact hcreated
    · rw [coproc_setCoproc_of_ne hj]
      exact h.created j

/-- The packets moved. -/
theorem Up.move {world : World} {stats : FirewallPktStats}
    {inspected : Mbuf → Option (FwAction × Bool)} (h : Up cfg p)
    (hreceived : ∀ pkt ∈ received world.state.log,
      pkt ∈ received p.world.state.log ∨
      (nextHop (cfg.setup .forward) pkt ≠ unknownPort →
        ipVersion (cfg.bytes pkt) = 4)) :
    Up cfg { p with world := world, stats := stats, inspected := inspected } :=
  ⟨h.crash, h.kniStop, h.freed, h.loop, h.created, fun pkt hpkt =>
    (hreceived pkt hpkt).elim (h.version pkt) id⟩

/-- The set-ups go on: none goes back behind the creation of its table. -/
theorem Up.setups {setups : Setups} (h : Up cfg p)
    (hcreated : ∀ j, (p.setups.pc j).PastCreate → (setups.pc j).PastCreate) :
    Up cfg { p with setups := setups } :=
  ⟨h.crash, h.kniStop, h.freed, h.loop,
    fun j => (h.created j).imp id (hcreated j), h.version⟩

theorem pastCreate_step {file : List FwRule} {w : Setups} (a : SetupAction)
    {j : Nat} (h : (w.pc j).PastCreate) :
    ((w.step file a).pc j).PastCreate := by
  by_cases hj : j = a.lcoreId
  · rcases setups_step_cases w a with
      ⟨-, heq⟩ | ⟨-, -, heq⟩ | ⟨pc, s, -, hsome, heq⟩
    · rwa [heq]
    · rwa [heq]
    · rw [heq, hj, pc_advance_self]
      rw [hj] at h
      generalize w.pc a.lcoreId = pc₀, w.shared = s₀ at h hsome
      cases setupStep_statement hsome with
      | add | addFailed | added | finished => trivial
      | store _ _ _ hfield => cases hfield <;> exact h.elim
      | _ => exact h.elim
  · rw [pc_step_of_ne hj]
    exact h

theorem pastCreate_of_isFinished {pc : SetupPc} (h : pc.isFinished = true) :
    pc.PastCreate := by
  cases pc with
  | finished ret => trivial
  | _ => cases h

/-- What a coprocessor has in its burst was received, and is routed. -/
theorem routed_of_process {i : Nat} {pkt : Mbuf} {burst : List Mbuf}
    (h : p.Reachable cfg) (hpc : p.world.coproc i = .process (pkt :: burst)) :
    pkt ∈ received p.world.state.log ∧
      nextHop (cfg.setup .forward) pkt ≠ unknownPort := by
  have hreach := (simulated_of_reachable h).reachable _ (oracle_follows cfg p)
  have hmem : pkt ∈ p.world.pipe.bank (.inspecting i) := by
    show pkt ∈ p.world.bank (.inspecting i)
    rw [bank_inspecting, hpc]
    exact List.mem_cons_self
  refine ⟨(pipe_moves_of_reachable hreach).conserved.sound.mem_known hmem, ?_⟩
  have hi : i < kniKthread := (wired_of_reachable hreach).process i _ hpc
  have hhop : nextHop (cfg.setup .forward) pkt = i :=
    ((inspected_of_reachable hreach).fits _ pkt hmem).2.1
  have hlt : kniKthread < unknownPort := by decide
  omega

theorem served_of_undisturbed {a : ProcessAction} (h : undisturbed cfg p a) :
    served cfg p a := by
  cases a with
  | signal => trivial
  | rx env => exact h.1
  | coproc i env setupEnv => exact h.1

theorem Up.turn {a : ProcessAction} (h : Up cfg p) (hreach : p.Reachable cfg)
    (htable : ∀ i, (p.setups.pc i).PastCreate → p.setups.shared.lpmTbl ≠ none)
    (ha : undisturbed cfg p a) (ht : Turn cfg p a p') : Up cfg p' := by
  have hcheck : checkStop p.kniStop .teardown = .body := by
    rw [h.kniStop]
    rfl
  cases ht with
  | signal => exact ha.elim
  | rxCheck => exact ⟨h.crash, h.kniStop, h.freed, h.loop, h.created, h.version⟩
  | rxBody hrx hworld =>
      refine ⟨h.crash, h.kniStop, h.freed, h.loop, h.created,
        fun pkt hpkt => ?_⟩
      rw [hworld] at hpkt
      exact (received_fastStep pkt hpkt).elim (h.version pkt) (ha.2 pkt)
  | rxIdle | idle => exact h
  | useFreed hpc huse hblock =>
      rw [h.freed] at hblock
      cases hblock
  | @fault i env setupEnv pkt burst fault hpc hburst hfault =>
      -- The packet is of version 4, and the coprocessor's own set-up made a
      -- table.
      obtain ⟨hmem, hhop⟩ := routed_of_process hreach hburst
      have hpast :=
        (h.created i).resolve_left (by rw [hpc]; exact LoopPc.noConfusion)
      obtain ⟨t, htbl⟩ := Option.ne_none_iff_exists'.mp (htable i hpast)
      rw [Process.table, htbl, Option.map_some, fwPacketHandler_version
        (h.version pkt hmem hhop)] at hfault
      cases hfault
  | badFree hpc => exact absurd hpc (h.loop _)
  | @setup i env setupEnv setups hpc huses hsetups =>
      have hup : Up cfg { p with setups := setups } := by
        refine h.setups fun j hj => ?_
        rw [hsetups]
        exact pastCreate_step _ hj
      refine hup.setCoproc ?_ ?_
      · split <;> exact LoopPc.noConfusion
      · split
        · next hfinished => exact .inr (pastCreate_of_isFinished hfinished)
        · exact .inl rfl
  | check hpc =>
      rw [hcheck]
      refine h.setCoproc LoopPc.noConfusion (.inr ?_)
      exact (h.created _).resolve_left (by rw [hpc]; exact LoopPc.noConfusion)
  | inspect hpc hburst hverdict =>
      refine h.move fun pkt hpkt => .inl ?_
      exact received_coprocStep ▸ hpkt
  | @pass i env setupEnv world hpc hburst hworld =>
      have hup : Up cfg { p with world := world } := by
        refine h.move fun pkt hpkt => .inl ?_
        rw [hworld] at hpkt
        exact received_coprocStep ▸ hpkt
      refine hup.setCoproc ?_ (.inr ?_)
      · split <;> exact LoopPc.noConfusion
      · exact (h.created i).resolve_left (by rw [hpc]; exact LoopPc.noConfusion)
  | teardown hpc => exact absurd hpc (h.loop _)

end Up

/-- As long as nobody stops the engine, the library creates its tables, the
coprocessors are set up one after the other with files that are loaded and
memory to be had, and the packets that are routed are of version 4, nothing
takes the engine down: `rte_exit` is not called, and no NULL table and no NULL
header is ever gone through, whatever the order in which packets and set-ups are
handled. -/
theorem process_stays_up {cfg : Config} {p : Process}
    (h : (process cfg).Reach (undisturbed cfg) p) : p.down = false := by
  have hsetups : ∀ p, (process cfg).Reach (undisturbed cfg) p →
      (setups cfg.file).Reach (fun w a => tablesCreated w a ∧
        oneAtATime w a ∧ provided w a) p.setups :=
    fun p hp => setups_of_reachable
      (fun _ _ _ _ ha hpc => ⟨ha.2.1, ha.2.2 hpc⟩) hp
  have hup : Up cfg p := by
    refine h.invariant (fun p hp => ?_) fun p a p' hr hp ha hstep => ?_
    · rw [show p = Process.start from hp]
      exact up_start
    · rw [show p' = p.step cfg a from hstep]
      rcases process_step_cases cfg p a with ⟨-, heq⟩ | ⟨-, ht⟩
      · rwa [heq]
      · exact hp.turn (hr.mono fun _ _ => served_of_undisturbed)
          (created_of_reach ((hsetups p hr).mono fun _ _ hok => hok.1)) ha ht
  have hserial : Serial cfg.file False p.setups := serial_of_reach
    (fun _ _ _ hok => ⟨hok.2.1, hok.2.2, False.elim⟩) (hsetups p h)
  rw [Process.down, hserial.crashed, hup.crash]
  rfl

/-- Coprocessor 0 is the only one that is set up, nothing is refused, and what
comes in is of version 4. -/
def ProcessAction.first (cfg : Config) : ProcessAction → Bool
  | .signal => false
  | .rx env => env.burst.all fun pkt => ipVersion (cfg.bytes pkt) == 4
  | .coproc i _ setupEnv => i == 0 && setupEnv.create &&
      (setupEnv.loads && setupEnv.malloc)

theorem undisturbed_of_first {cfg : Config} {p : Process} {a : ProcessAction}
    (hpc : ∀ j, j ≠ 0 → p.setups.pc j = .readFile) (hserved : served cfg p a)
    (ha : a.first cfg = true) : undisturbed cfg p a := by
  cases a with
  | signal => cases ha
  | rx env =>
      refine ⟨hserved, fun pkt hpkt _ => ?_⟩
      simpa using List.all_eq_true.mp ha pkt hpkt
  | coproc i env setupEnv =>
      simp only [ProcessAction.first, Bool.and_eq_true, beq_iff_eq] at ha
      obtain ⟨⟨hi, hcreate⟩, hprovided⟩ := ha
      refine ⟨hserved, hcreate, fun _ => ⟨fun j hj => .inl (hpc j ?_),
        hprovided⟩⟩
      rwa [hi] at hj

theorem reach_of_first {cfg : Config} {actions : List ProcessAction}
    (hserved : servedAll cfg .start actions = true)
    (hfirst : ∀ a ∈ actions, a.first cfg = true) :
    (process cfg).Reach (undisturbed cfg) (Process.start.run cfg actions) := by
  -- The set-ups of the others have not begun at any point of the run.
  have hrun : ∀ p, (process cfg).Reach (undisturbed cfg) p →
      (∀ j, j ≠ 0 → p.setups.pc j = .readFile) →
      servedAll cfg p actions = true →
      (process cfg).Reach (undisturbed cfg) (p.run cfg actions) := by
    clear hserved
    induction actions with
    | nil => exact fun p hp _ _ => hp
    | cons a actions ih =>
        intro p hp hpc hserved
        obtain ⟨ha, hfirst⟩ := List.forall_mem_cons.mp hfirst
        rw [servedAll, Bool.and_eq_true, decide_eq_true_eq] at hserved
        refine ih hfirst _
          (.step hp (undisturbed_of_first hpc hserved.1 ha) rfl) ?_ hserved.2
        intro j hj
        rcases process_step_cases cfg p a with ⟨-, heq⟩ | ⟨-, ht⟩
        · rw [heq]
          exact hpc j hj
        · generalize p.step cfg a = p' at ht
          cases ht with
          | @setup i env setupEnv setups _ _ hsetups =>
              have hi : i = 0 := by
                simp only [ProcessAction.first, Bool.and_eq_true,
                  beq_iff_eq] at ha
                exact ha.1.1
              show setups.pc j = .readFile
              rw [hsetups, pc_step_of_ne (show j ≠ i by rwa [hi])]
              exact hpc j hj
          | _ => exact hpc j hj
  exact hrun .start (.init rfl) (fun _ _ => rfl) hserved

/-- Coprocessor 0 is set up and inspects two packets. -/
theorem process_stays_up_ten :
    (Process.start.run tenConfig
      (List.replicate 13 (.coproc 0 sampleEnv .fine) ++
      .rx sampleEnv :: .rx { sampleEnv with burst := [0, 1] } ::
        List.replicate 24 (.rx sampleEnv) ++
        List.replicate 5 (.coproc 0 sampleEnv .fine))).down = false :=
  process_stays_up (reach_of_first (by decide +kernel) (by decide +kernel))

end GhostDataplane.Engine
