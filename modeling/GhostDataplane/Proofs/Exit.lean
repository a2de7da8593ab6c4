import GhostDataplane.Agent.Process
import GhostDataplane.Proofs.Serve

/-!
# The end of the agent's process

The destructor means to terminate the global agent before the others, and checks
that it has found it. What it finds is the agent of the CPU that the global id
named when it looked. Two things have to be right for this. There must be an
agent on that CPU, whatever migrations there have been: this is `OnEnclave`, and
it makes the last `CHECK_EQ` one that never fails. And the id must not change
any more, which is not up to the destructor: an agent in the middle of a
migration completes it, and one that the kernel asks to leave its CPU begins
one. As long as neither is the case the id stays.
-/

namespace GhostDataplane.Agent

open GhostDataplane.Lib

/-! ## Bringing an agent to the front -/

section Order

variable {g front first : CpuId} {agents rest : List CpuId}

theorem swapFront_some (h : swapFront front g agents = some (first, rest)) :
    first = g ∧ (first :: rest).Perm (front :: agents) := by
  induction agents generalizing first rest with
  | nil => cases h
  | cons agent agents ih =>
      rw [swapFront] at h
      split at h
      · next hagent =>
          cases h
          exact ⟨hagent, List.Perm.swap _ _ _⟩
      · obtain ⟨swapped, hswap, heq⟩ := Option.map_eq_some_iff.mp h
        cases heq
        obtain ⟨hfirst, hperm⟩ := ih hswap
        refine ⟨hfirst, ?_⟩
        exact (List.Perm.swap _ _ _).trans
          ((hperm.cons agent).trans (List.Perm.swap _ _ _))

theorem swapFront_of_mem (front : CpuId) (h : g ∈ agents) :
    ∃ swapped, swapFront front g agents = some swapped := by
  induction agents with
  | nil => cases h
  | cons agent agents ih =>
      rw [swapFront]
      split
      · exact ⟨_, rfl⟩
      · next hne =>
          obtain ⟨swapped, hswap⟩ :=
            ih ((List.mem_cons.mp h).resolve_left (Ne.symm hne))
          rw [hswap]
          exact ⟨_, rfl⟩

theorem bringToFront_perm : (bringToFront g agents).Perm agents := by
  cases agents with
  | nil => exact List.Perm.refl _
  | cons front agents =>
      rw [bringToFront]
      split
      · exact List.Perm.refl _
      · split
        · exact List.Perm.refl _
        · next hswap => exact (swapFront_some hswap).2

theorem bringToFront_head (h : g ∈ agents) :
    (bringToFront g agents).head? = some g := by
  cases agents with
  | nil => cases h
  | cons front agents =>
      rw [bringToFront]
      split
      · next hfront => rw [hfront, List.head?_cons]
      · next hfront =>
          obtain ⟨swapped, hswap⟩ := swapFront_of_mem front
            ((List.mem_cons.mp h).resolve_left (Ne.symm hfront))
          rw [hswap]
          exact congrArg some (swapFront_some hswap).1

end Order

/-! ## The destructor among the agents -/

/-- What the destructor relies on, and has made sure of. -/
structure Exiting (cfg : Config) (p : AgentProcess) : Prop where
  world : ThreadsReachable cfg {c | c ∈ cfg.cpus} p.world
  read : ∀ g, p.exit = .reorder g → g ∈ cfg.cpus
  order : ∀ order, p.exit = .terminate order → order.Perm cfg.cpus.ids
  checks : ∀ check, p.exit = .abort check → check = .runQueueEq ∨
    check = .runQueueLowPriorityEq

section Exiting

variable {cfg : Config} {globalCpu : CpuId} {agents : List CpuId}
  {p p' : AgentProcess} {act : ProcessAction}

theorem Exiting.exit (h : Exiting cfg p) (hagents : agents.Perm cfg.cpus.ids) :
    Exiting cfg { p with exit := exitStep agents p.world.sched p.exit } := by
  have hglobal := (onEnclave_of_reachable h.world).global
  obtain ⟨w, pc⟩ := p
  refine ⟨h.world, ?_, ?_, ?_⟩
  · intro g hg
    cases pc with
    | readGlobal =>
        cases hg
        exact hglobal
    | validate | validateLowPriority | reorder =>
        simp only [exitStep] at hg
        split at hg <;> cases hg
    | terminate | abort => cases hg
  · intro order horder
    cases pc with
    | reorder g =>
        simp only [exitStep] at horder
        split at horder
        · cases horder
          exact bringToFront_perm.trans hagents
        · cases horder
    | validate | validateLowPriority =>
        simp only [exitStep] at horder
        split at horder <;> cases horder
    | readGlobal => cases horder
    | terminate => exact h.order order horder
    | abort => cases horder
  · intro check hcheck
    cases pc with
    | validate =>
        simp only [exitStep] at hcheck
        split at hcheck
        · cases hcheck
        · cases hcheck
          exact Or.inl rfl
    | validateLowPriority =>
        simp only [exitStep] at hcheck
        split at hcheck
        · cases hcheck
        · cases hcheck
          exact Or.inr rfl
    | reorder g =>
        -- There is an agent on the CPU that was read.
        have hmem : g ∈ agents := hagents.mem_iff.mpr (h.read g rfl)
        rw [exitStep, if_pos (bringToFront_head hmem)] at hcheck
        cases hcheck
    | readGlobal => cases hcheck
    | terminate => cases hcheck
    | abort => exact h.checks check hcheck

theorem Exiting.step (h : Exiting cfg p) (hagents : agents.Perm cfg.cpus.ids)
    (hstep : (agentProcess cfg globalCpu agents).step p act p') :
    Exiting cfg p' := by
  cases act with
  | agents act =>
      obtain ⟨hworld, hexit⟩ := hstep
      exact ⟨.step h.world trivial hworld, hexit ▸ h.read, hexit ▸ h.order,
        hexit ▸ h.checks⟩
  | exit =>
      obtain rfl := hstep
      exact h.exit hagents

theorem exiting_of_reachable (hagents : agents.Perm cfg.cpus.ids)
    (h : ProcessReachable cfg globalCpu agents p) : Exiting cfg p := by
  refine Machine.Reach.invariant (I := Exiting cfg) ?_ ?_ h
  · rintro p
      ⟨⟨cpuhist, st, hcon⟩, hpc, hproduced, hconsumed, hdispatched, hexit⟩
    refine ⟨.init
      ⟨⟨globalCpu, cpuhist, st, hcon⟩, hpc, hproduced, hconsumed, hdispatched⟩,
      ?_, ?_, ?_⟩
    all_goals
      rw [hexit]
      intro x hx
      cases hx
  · intro p act p' _ hp _ hstep
    exact hp.step hagents hstep

theorem parseNetConfig_mem {topology : Topology} {maxCpus : Nat} {flags : Flags}
    (h : parseNetConfig topology maxCpus flags = .ok (cfg, globalCpu)) :
    globalCpu ∈ cfg.cpus := by
  unfold parseNetConfig at h
  split at h
  · cases h
  · split at h
    · cases h
    · generalize (if flags.globalcpu < 0 then flags.ghostCpus.ids.headD 0
        else flags.globalcpu.toNat) = globalcpu at h
      simp only at h
      split at h
      · next hset =>
          cases h
          exact CpuList.isSet_iff.mp hset
      · cases h

/-- The global agent is at home on the CPU that the flags name. -/
theorem globalHomeCpu_of_reachable (hagents : agents.Perm cfg.cpus.ids)
    (hglobal : globalCpu ∈ cfg.cpus)
    (h : ProcessReachable cfg globalCpu agents p) :
    p.world.sched.globalHomeCpu = globalCpu := by
  refine Machine.Reach.invariant
    (I := fun p => p.world.sched.globalHomeCpu = globalCpu) ?_ ?_ h
  · rintro p ⟨⟨cpuhist, st, hcon⟩, -⟩
    rw [construct, if_pos (CpuList.isSet_iff.mpr hglobal)] at hcon
    injection hcon with hcon
    rw [← hcon]
    rfl
  · intro p act p' hr hp _ hstep
    cases act with
    | agents act =>
        have hinv :=
          threadsInv_of_reachable (exiting_of_reachable hagents hr).world
        obtain ⟨hstep, -⟩ := hstep
        cases act with
        | produce msg =>
            rw [hstep.2]
            exact hp
        | run c r =>
            rw [hinv.globalHomeCpu (threadStep_cases hstep.2)]
            exact hp
    | exit =>
        obtain rfl := hstep
        exact hp

end Exiting

/-! ## No migration, no change -/

/-- In `PickNextGlobalCPU`, before the global id is written. -/
def Pc.migrating : Pc → Bool
  | .pickNext | .search _ _ _ | .settle _ _ | .vacate _ _ | .setGlobal _ => true
  | _ => false

section Still

variable {cfg : Config} {c : CpuId} {pc pc' : Pc} {s s' : NetScheduler}
  {w w' : World} {r : Reads}

theorem SchedStep.still (h : SchedStep cfg c s pc pc' s') (hb : pc ≠ .boosted)
    (hpc : pc.migrating = false) : pc'.migrating = false := by
  cases h with
  | outside _ hout =>
      cases pc' with
      | pickNext | search | settle | vacate | setGlobal => cases hout
      | _ => rfl
  | picking | draining => exact absurd rfl hb
  | searching | nowhere | found | passed | settled | vacated | handedOver =>
      cases hpc
  | _ => rfl

/-- An agent that is not in a migration and not asked to begin one leaves the
global id as it is. -/
theorem ThreadsInv.still (h : ThreadsInv cfg w)
    (hw : (w.pc c).migrating = false) (hr : r.boostedPriority = false)
    (hstep : Agent.threadStep cfg r c w = .ok w') :
    w'.sched.globalCpuid = w.sched.globalCpuid ∧
      ∀ d, (w.pc d).migrating = false → (w'.pc d).migrating = false := by
  have hupdate : ∀ pc' : Pc, pc'.migrating = false →
      ∀ d, (w.pc d).migrating = false →
      (Function.update w.pc c pc' d).migrating = false :=
    fun _ hpc' _ hd => update_pc (P := (·.migrating = false)) hpc' hd
  by_cases hb : w.pc c = .boosted
  · rw [threadStep_boosted hr hstep hb]
    exact ⟨rfl, hupdate _ rfl⟩
  · cases threadStep_cases hstep with
    | @sched pc' s' _ _ hs =>
        refine ⟨?_, hupdate _ (hs.still hb hw)⟩
        show s'.globalCpuid = w.sched.globalCpuid
        by_contra hne
        by_cases hin : (w.pc c).inside = true
        · obtain ⟨-, hholds, -⟩ := h.held rfl hin
          obtain ⟨target, htarget⟩ := hholds.handing_over hs hne
          rw [htarget] at hw
          cases hw
        · exact hne (by rw [(hs.outside_cases (by simpa using hin)).1])
    | message | drained | consumed => exact ⟨rfl, hupdate _ rfl⟩
    | dispatched hpc hperf =>
        exact ⟨(perform_cleared (h.isMessage hpc) hperf).globalCpuid,
          hupdate _ rfl⟩

end Still

/-- The kernel wants no CPU back. -/
def undisturbed (_ : AgentProcess) : ProcessAction → Prop
  | .agents (.run _ r) => r.boostedPriority = false
  | _ => True

/-- Where the destructor is after it has read `g`, and before. -/
def ExitPc.Ordered (g : CpuId) : ExitPc → Prop
  | .readGlobal => True
  | .reorder g' => g' = g
  | .terminate agents => agents.head? = some g
  | _ => False

/-- No agent is in a migration, and the global id is the one that the destructor
reads. -/
structure Undisturbed (cfg : Config) (g : CpuId) (p : AgentProcess) : Prop where
  exiting : Exiting cfg p
  still : ∀ c ∈ cfg.cpus, (p.world.pc c).migrating = false
  global : p.world.sched.globalCpuid = g
  ordered : p.exit.Ordered g

theorem Undisturbed.step {cfg : Config} {globalCpu g : CpuId}
    {agents : List CpuId} {p p' : AgentProcess} {act : ProcessAction}
    (h : Undisturbed cfg g p) (hagents : agents.Perm cfg.cpus.ids)
    (ha : undisturbed p act)
    (hstep : (agentProcess cfg globalCpu agents).step p act p') :
    Undisturbed cfg g p' := by
  have hexiting := h.exiting.step hagents hstep
  cases act with
  | agents act =>
      obtain ⟨hworld, hexit⟩ := hstep
      have hordered : p'.exit.Ordered g := hexit ▸ h.ordered
      cases act with
      | produce msg =>
          obtain ⟨-, hworld⟩ := hworld
          refine ⟨hexiting, ?_, ?_, hordered⟩
          · rw [hworld]
            exact h.still
          · rw [hworld]
            exact h.global
      | run c r =>
          have hinv := threadsInv_of_reachable h.exiting.world
          obtain ⟨hglobal, hstill⟩ :=
            hinv.still (h.still c hworld.1) ha hworld.2
          exact ⟨hexiting, fun d hd => hstill d (h.still d hd),
            hglobal.trans h.global, hordered⟩
  | exit =>
      obtain rfl := hstep
      refine ⟨hexiting, h.still, h.global, ?_⟩
      have hordered := h.ordered
      cases hpc : p.exit with
      | validate | validateLowPriority | abort =>
          rw [hpc] at hordered
          cases hordered
      | readGlobal => exact h.global
      | reorder g' =>
          rw [hpc] at hordered
          obtain rfl : g' = g := hordered
          have hmem : g' ∈ agents := hagents.mem_iff.mpr (h.exiting.read g' hpc)
          have hfront := bringToFront_head hmem
          rw [exitStep, if_pos hfront]
          exact hfront
      | terminate agents =>
          rw [hpc] at hordered
          exact hordered

/-- In every interleaving of the agents with the destructor, and whatever the
order of `agents_`, the home of the global agent is the CPU that the flags name;
no other check can fail than those of the run queues; the order of termination
has every agent once; and the global agent comes first in it, if no migration is
under way when the id is read and the kernel wants no CPU back. -/
theorem exit_order {topology : Topology} {maxCpus : Nat} {flags : Flags}
    {cfg : Config} {globalCpu : CpuId} {agents : List CpuId} {p : AgentProcess}
    (hparse : parseNetConfig topology maxCpus flags = .ok (cfg, globalCpu))
    (hagents : agents.Perm cfg.cpus.ids)
    (hp : ProcessReachable cfg globalCpu agents p) :
    p.world.sched.globalHomeCpu = globalCpu ∧
    (∀ check, p.exit = .abort check →
      check = .runQueueEq ∨ check = .runQueueLowPriorityEq) ∧
    (∀ order, p.exit = .terminate order → order.Perm cfg.cpus.ids) ∧
    (∀ actions p' order, p.exit = .readGlobal →
      (∀ c ∈ cfg.cpus, (p.world.pc c).migrating = false) →
      (agentProcess cfg globalCpu agents).Steps undisturbed p actions p' →
      p'.exit = .terminate order →
      order.head? = some p'.world.sched.globalCpuid) := by
  have hexiting := exiting_of_reachable hagents hp
  have hhome :=
    globalHomeCpu_of_reachable hagents (parseNetConfig_mem hparse) hp
  refine ⟨hhome, hexiting.checks, hexiting.order, ?_⟩
  intro actions p' order hread hstill hrun hend
  have hstart : Undisturbed cfg p.world.sched.globalCpuid p :=
    ⟨hexiting, hstill, rfl, by rw [hread]; trivial⟩
  have hlast := hrun.invariant hstart
    fun _ _ _ h ha hstep => h.step hagents ha hstep
  have hhead := hlast.ordered
  rw [hend] at hhead
  rw [hlast.global]
  exact hhead

/-- The agents take steps, the destructor stays where it is. -/
theorem reach_agents {cfg : Config} {globalCpu : CpuId} {agents : List CpuId}
    {actions : List Action} {pc : ExitPc} {w w' : World}
    (hp : ProcessReachable cfg globalCpu agents ⟨w, pc⟩)
    (hrun : (agentThreads cfg {c | c ∈ cfg.cpus}).Steps (fun _ _ => True)
      w actions w') :
    ProcessReachable cfg globalCpu agents ⟨w', pc⟩ := by
  induction hrun with
  | nil => exact hp
  | cons _ hstep _ ih =>
      exact ih (.step (a := .agents _) hp trivial ⟨hstep, rfl⟩)

/-- The agent of CPU 0 hands its role over, and comes first no more. Only if it
does so after the id was read does it come first nevertheless. -/
theorem exit_order_migrated :
    (∃ p, ProcessReachable twoCpus 0 [0, 1] p ∧ p.exit = .terminate [1, 0] ∧
      [1, 0].head? = some p.world.sched.globalCpuid) ∧
    ∃ p, ProcessReachable twoCpus 0 [0, 1] p ∧ p.exit = .terminate [0, 1] ∧
      p.world.sched.globalCpuid = 1 := by
  let start : World := ⟨twoCpusStart, fun _ => .head, 0, [], 0, []⟩
  have hstart : ProcessReachable twoCpus 0 [0, 1] ⟨start, .validate⟩ :=
    .init ⟨⟨fun _ => 0, .complete, rfl⟩, fun _ => rfl, rfl, rfl, rfl, rfl⟩
  have hexit : ∀ {w pc}, ProcessReachable twoCpus 0 [0, 1] ⟨w, pc⟩ →
      ProcessReachable twoCpus 0 [0, 1] ⟨w, exitStep [0, 1] w.sched pc⟩ :=
    fun h => .step (a := .exit) h trivial rfl
  have hrun :
      ∃ w, runThreads twoCpus (List.replicate 8 (0, calmReads true))
        start = .ok w ∧
      w.sched.runQueue = [] ∧ w.sched.runQueueLowPriority = [] ∧
      w.sched.globalCpuid = 1 ∧
      ∀ c ∈ twoCpus.cpus.ids, (w.pc c).migrating = false :=
    ⟨_, rfl, rfl, rfl, rfl,
      List.forall_mem_cons.mpr ⟨rfl, List.forall_mem_singleton.mpr rfl⟩⟩
  obtain ⟨w, hrun, hq, hl, hglobal, hstill⟩ := hrun
  have hsteps : ∃ actions, (agentThreads twoCpus {c | c ∈ twoCpus.cpus}).Steps
      (fun _ _ => True) start actions w := by
    refine ⟨_, steps_runThreads (fun step hstep => ?_) hrun⟩
    rw [List.eq_of_mem_replicate hstep]
    exact ⟨List.mem_cons_self, fun _ => trivial⟩
  obtain ⟨actions, hmigration⟩ := hsteps
  refine ⟨?_, ?_⟩
  · have hread : ProcessReachable twoCpus 0 [0, 1] ⟨w, .readGlobal⟩ := by
      have hreach := hexit (hexit (reach_agents hstart hmigration))
      simpa [exitStep, hq, hl] using hreach
    have hparse : parseNetConfig twoCpus.topology 2 ⟨twoCpus.cpus, -1, false⟩ =
        .ok (twoCpus, 0) := rfl
    have horder :
        exitStep [0, 1] w.sched (exitStep [0, 1] w.sched .readGlobal) =
        .terminate [1, 0] := by
      simp [exitStep, hglobal, bringToFront, swapFront]
    have hsteps :
        (agentProcess twoCpus 0 [0, 1]).Steps undisturbed ⟨w, .readGlobal⟩
          [.exit, .exit] ⟨w, .terminate [1, 0]⟩ :=
      .cons trivial rfl (.cons trivial (by rw [← horder]; rfl) .nil)
    refine ⟨⟨w, .terminate [1, 0]⟩, horder ▸ hexit (hexit hread), rfl, ?_⟩
    exact (exit_order hparse (.refl _) hread).2.2.2 _ _ _ rfl hstill hsteps rfl
  · have hreach :=
      hexit (reach_agents (hexit (hexit (hexit hstart))) hmigration)
    exact ⟨_, hreach, rfl, hglobal⟩

end GhostDataplane.Agent
