import GhostDataplane.Lib.Runs
import GhostDataplane.Proofs.Enclave

/-!
# Every message is dispatched

Exclusion says that messages come out of the channel in order and one at a time;
it does not say that they come out. A message could wait forever if the global
id named a CPU without an agent, if the agent it names never came back to the
channel, or if agents handed the role to each other for ever. This module shows
that none of it happens as long as the kernel neither stops the agents nor asks
the global agent to leave its CPU.

The clock is the global agent's own steps. `Pc.lap` bounds how many of them are
left until it looks at the channel, in terms of what it has in its hands: CPUs
to scan, turns of the assignment loop, tasks to put back on the queues, a
migration to complete. The two loops feed each other, a turn of the assignment
loop may lay a task aside and a CPU of the scan may give a task back, so what is
laid aside weighs less than a turn and a turn less than a CPU. Once the agent
drains, nothing interrupts it, and each message costs three steps. If the role
changes hands, the next agent is outside of the global branch and at most a few
steps from the head of its loop, less than what the hand-over had counted.

The other agents do not touch anything of this, and may sleep in `LocalYield` as
long as they like. So a round brings the channel closer to empty if the agent
that is the global one when it begins takes a step in it.
-/

namespace GhostDataplane.Agent

open GhostDataplane.Lib

/-! ## What the loops pass on to each other -/

section Queues

variable {cfg : Config} {c : CpuId} {s s' : NetScheduler}

theorem CpuList.length_insertId {c : CpuId} {l : List CpuId} :
    (insertId c l).length ≤ l.length + 1 := by
  induction l with
  | nil => exact Nat.le_refl _
  | cons x xs ih =>
      rw [insertId]
      split
      · exact Nat.le_refl _
      · split
        · exact Nat.le_succ _
        · exact Nat.succ_le_succ ih

/-- Reaping a transaction puts one task back at most. -/
theorem Settled.queueLength_le (h : Settled c s s') :
    queueLength s' ≤ queueLength s + 1 ∧
    s'.yieldingTasks = s.yieldingTasks := by
  rcases h with
    ⟨-, hpoll, -⟩ | ⟨b, t, k, st, -, -, -, ⟨-, -, rfl⟩ | ⟨-, -, rfl⟩⟩
  · rcases hpoll with rfl | ⟨st, -, rfl⟩
    · exact ⟨Nat.le_succ _, rfl⟩
    · exact ⟨Nat.le_succ _, rfl⟩
  · exact ⟨Nat.le_succ _, rfl⟩
  · exact ⟨Nat.le_of_eq length_push, rfl⟩

theorem Classified.lowPriority_le {env : RoundEnv} {a a' : Scan}
    (h : Classified env c s a a') :
    a'.availCpusLowPriority.ids.length ≤
      a.availCpusLowPriority.ids.length + 1 := by
  rcases h with ⟨-, -, rfl⟩ | ⟨-, -, rfl⟩ | ⟨t, k, -, -, ⟨-, rfl⟩ | ⟨-, rfl⟩⟩
  · exact Nat.le_succ _
  · exact Nat.le_succ _
  · exact CpuList.length_insertId
  · exact Nat.le_succ _

/-- What a CPU of the scan can add to the work of the assignment loop. -/
theorem ScanStep.adds {env : RoundEnv} {a a' : Scan}
    (h : ScanStep env c s a s' a') :
    queueLength s' + a'.availCpusLowPriority.ids.length ≤
        queueLength s + a.availCpusLowPriority.ids.length + 2 ∧
      s'.yieldingTasks = s.yieldingTasks := by
  cases h with
  | lost | skipped | inFlight => exact ⟨Nat.le_add_right _ _, rfl⟩
  | reclaimed _ hset =>
      obtain ⟨hlength, hyielding⟩ := hset.queueLength_le
      refine ⟨?_, hyielding⟩
      show queueLength s' + a.availCpusLowPriority.ids.length ≤ _
      omega
  | settled _ _ _ hset hclass =>
      obtain ⟨hlength, hyielding⟩ := hset.queueLength_le
      have hlow := hclass.lowPriority_le
      exact ⟨by omega, hyielding⟩

/-- A turn of the assignment loop lays one task aside at most. -/
theorem AssignStep.yieldingTasks_le {env : RoundEnv} {n : TaskId} {k : NetTask}
    {a a' : Assign} (h : AssignStep cfg env n k s a s' a') :
    s'.yieldingTasks.length ≤ s.yieldingTasks.length + 1 := by
  have hyield : (s.yieldingTasks ++ [n]).length ≤ s.yieldingTasks.length + 1 :=
    Nat.le_of_eq List.length_append
  cases h with
  | stale | unplaced => exact hyield
  | batched => exact Nat.le_succ _
  | replaced _ _ _ hrep =>
      rcases hrep.result with ⟨-, rfl⟩ | ⟨-, rfl⟩
      · exact Nat.le_succ _
      · exact hyield

theorem Taken.yieldingTasks {s₁ : NetScheduler} {n : TaskId} {k : NetTask}
    (h : Taken s n k s₁) : s₁.yieldingTasks = s.yieldingTasks := by
  rcases dequeue_some h.dequeued with ⟨rest, -, rfl⟩ | ⟨-, rest, -, rfl⟩
  · rfl
  · rfl

end Queues

/-! ## How far the global agent is from the channel -/

/-- Steps that are left to the thread at a counter until it has taken the next
message, if it is the global agent and stays it. -/
def Pc.lap (cfg : Config) (s : NetScheduler) : Pc → Nat
  | .finished | .consume => 0
  | .dispatch _ => 1
  | .peek => 2
  | .boosted => 3
  | .head => 4
  | .localYield | .store _ | .bump _ => 5
  | .load => 6
  | .ping _ => 7
  | .requeue tasks _ => tasks.length + 6
  | .submit _ _ => s.yieldingTasks.length + 7
  | .assign _ a _ => 2 * turnsLeft s a + s.yieldingTasks.length + 8
  | .scan _ cpus a =>
      5 * cpus.length +
        2 * (queueLength s + a.availCpusLowPriority.ids.length) +
        s.yieldingTasks.length + 9
  | .setGlobal _ => 8
  | .vacate _ _ => 9
  | .settle _ _ => 10
  | .search _ _ cpus => cpus.length + 11
  | .pickNext => cfg.cpus.ids.length + 12

/-- The same for the message with number `n` and the agent that is the global
one. -/
def World.delay (cfg : Config) (n : Nat) (w : World) : Nat :=
  if n ≤ w.dispatched.length then 0
  else 3 * (n - w.consumed) + (w.pc w.sched.globalCpuid).lap cfg w.sched

/-- The agent goes on, and the kernel does not want its CPU. -/
def Reads.Calm (r : Reads) :
    Prop := r.finished = false ∧ r.boostedPriority = false

section Lap

variable {cfg : Config} {c : CpuId} {pc pc' : Pc} {s s' : NetScheduler}
  {w w' : World} {r : Reads} {n : Nat}

theorem Pc.lap_outside (hpc : pc.inside = false) : pc.lap cfg s ≤ 7 := by
  cases pc with
  | head | localYield | ping | load | store | finished =>
      simp only [Pc.lap]
      omega
  | _ => cases hpc

/-- A step in the global branch is one of those counted. -/
theorem Holds.lap_lt (h : Holds cfg pc s) (hstep : SchedStep cfg c s pc pc' s')
    (hpc : pc.inside = true) (hne : pc ≠ .boosted) :
    pc'.lap cfg s' < pc.lap cfg s := by
  cases hstep with
  | outside hout => cases hout.symm.trans hpc
  | entered => cases hpc
  | picking | draining => exact absurd rfl hne
  | searching | settled | vacated | handedOver | bumped =>
      exact Nat.lt_succ_self _
  | nowhere | found | passed | requeued | cleared =>
      simp only [Pc.lap, List.length_cons, List.length_nil]
      omega
  | scanned hscan =>
      obtain ⟨hadds, hyielding⟩ := (scanCpu_cases hscan).adds
      simp only [Pc.lap, hyielding, List.length_cons]
      omega
  | collected =>
      simp only [Pc.lap, turnsLeft, queueLength, List.length_nil]
      omega
  | assigned hmore hd hassign =>
      obtain ⟨k, ht, has⟩ := assignTask_taken h.fits hd hassign
      have hturn := turn_variant hd hassign
      have hyielding := has.yieldingTasks_le
      rw [ht.yieldingTasks] at hyielding
      simp only [Pc.lap]
      omega
  | exhausted =>
      simp only [Pc.lap]
      omega
  | submitted hsub =>
      split at hsub
      · cases Checked.pure_ok.mp hsub
        exact Nat.lt_succ_self _
      · cases Checked.modify_ok.mp hsub
        exact Nat.lt_succ_self _

/-- The global id changes at one counter only. -/
theorem Holds.handing_over (h : Holds cfg pc s)
    (hstep : SchedStep cfg c s pc pc' s')
    (hne : s'.globalCpuid ≠ s.globalCpuid) :
    ∃ target, pc = .setGlobal target := by
  have hout : pc'.inside ≠ true := fun hin => hne (h.globalCpuid hstep hin)
  cases hstep with
  | outside | nowhere | bumped => exact absurd rfl hne
  | handedOver => exact ⟨_, rfl⟩
  | _ => exact absurd rfl hout

theorem SchedStep.ne_finished (h : SchedStep cfg c s pc pc' s')
    (hpc : pc.inside = true) : pc' ≠ .finished := by
  cases h with
  | outside hout => cases hout.symm.trans hpc
  | _ =>
      intro hfinished
      cases hfinished

/-- What a thread outside of the global branch does, if it is not told to
stop. -/
theorem threadStep_outside (hr : r.Calm) (h : threadStep cfg r c w = .ok w')
    (hpc : (w.pc c).inside = false) (hgoes : w.pc c ≠ .finished) :
    ∃ pc' migrations, w' = { w.goto c pc' with migrations := migrations } ∧
      pc' ≠ .finished ∧
      (c = w.sched.globalCpuid →
        pc'.lap cfg w.sched < (w.pc c).lap cfg w.sched) := by
  unfold threadStep at h
  cases hc : w.pc c with
  | finished => exact absurd hc hgoes
  | head =>
      simp only [hc, World.exec, schedStep, Checked.get_bind, hr.1] at h
      cases h
      by_cases hglobal : c = w.sched.globalCpuid
      · refine ⟨.boosted, w.migrations, ?_, Pc.noConfusion,
          fun _ => Nat.lt_succ_self _⟩
        simp [World.goto, ← hglobal]
      · refine ⟨.localYield, w.migrations, ?_, Pc.noConfusion,
          fun hg => absurd hg hglobal⟩
        simp [World.goto, hglobal]
  | localYield | ping =>
      simp only [hc] at h
      cases h
      exact ⟨_, _, rfl, Pc.noConfusion, fun _ => Nat.lt_succ_self _⟩
  | load | store =>
      simp only [hc] at h
      cases h
      exact ⟨_, _, rfl, Pc.noConfusion, fun _ => Nat.lt_succ_self _⟩
  | _ =>
      rw [hc] at hpc
      cases hpc

/-- The global agent goes on to the channel if the kernel does not want its
CPU. -/
theorem threadStep_boosted (hr : r.boostedPriority = false)
    (h : threadStep cfg r c w = .ok w') (hpc : w.pc c = .boosted) :
    w' = w.goto c .peek := by
  unfold threadStep at h
  simp only [hpc, World.exec, schedStep, hr] at h
  cases h
  rfl

end Lap

/-! ## One step -/

section Step

variable {cfg : Config} {c : CpuId} {pc' : Pc} {s' : NetScheduler}
  {w w' : World} {r : Reads} {n : Nat}

/-- A step of the global agent that leaves the channel alone. -/
theorem ThreadsInv.delay_lt (h : ThreadsInv cfg w)
    (hc : c = w.sched.globalCpuid) (hwaits : w.dispatched.length < n)
    (hpc : w'.pc = Function.update w.pc c pc')
    (hdispatched : w'.dispatched = w.dispatched)
    (hconsumed : w'.consumed = w.consumed)
    (hlap : pc'.lap cfg w'.sched < (w.pc c).lap cfg w.sched)
    (hkeeps : w'.sched.globalCpuid ≠ c → ∃ target, w.pc c = .setGlobal target) :
    w'.delay cfg n < w.delay cfg n := by
  have hglobal : (w'.pc w'.sched.globalCpuid).lap cfg w'.sched <
      (w.pc c).lap cfg w.sched := by
    rw [hpc]
    by_cases hg : w'.sched.globalCpuid = c
    · rw [hg, Function.update_self]
      exact hlap
    · -- The next agent is outside, where the way to the channel is short.
      have hout : (w.pc w'.sched.globalCpuid).inside = false :=
        h.outside (hc ▸ hg)
      obtain ⟨target, htarget⟩ := hkeeps hg
      rw [Function.update_of_ne hg, htarget]
      exact Nat.lt_succ_of_le (Pc.lap_outside hout)
  rw [World.delay, World.delay, hdispatched, hconsumed,
    if_neg (Nat.not_le.mpr hwaits), if_neg (Nat.not_le.mpr hwaits), ← hc]
  omega

theorem Drain.length_dispatched {pc : Pc} (h : Drain w pc) :
    w.dispatched.length = w.consumed + pc.handed := by
  rw [h.dispatched, List.length_take]
  exact Nat.min_eq_left h.bound

/-- Every step of the global agent brings it closer to the message. -/
theorem ThreadsInv.global_lowers (h : ThreadsInv cfg w) (hr : r.Calm)
    (hc : c = w.sched.globalCpuid) (hgoes : w.pc c ≠ .finished)
    (hstep : Agent.threadStep cfg r c w = .ok w') (hn : n ≤ w.produced.length)
    (hwaits : w.dispatched.length < n) : w'.delay cfg n < w.delay cfg n := by
  by_cases hin : (w.pc c).inside = true
  · by_cases hb : w.pc c = .boosted
    · rw [threadStep_boosted hr.2 hstep hb]
      refine h.delay_lt hc hwaits rfl rfl rfl ?_ fun hg => absurd hc.symm hg
      rw [hb]
      exact Nat.lt_succ_self _
    · obtain ⟨-, hholds, hdrain⟩ := h.held rfl hin
      have hlength := hdrain.length_dispatched
      cases threadStep_cases hstep with
      | sched _ hs =>
          exact h.delay_lt hc hwaits rfl rfl rfl (hholds.lap_lt hs hin hb)
            fun hg => hholds.handing_over hs (hc ▸ hg)
      | message hpc =>
          refine h.delay_lt hc hwaits rfl rfl rfl ?_ fun hg => absurd hc.symm hg
          rw [hpc]
          exact Nat.lt_succ_self _
      | drained hpc hmsg =>
          -- The channel is not empty: message `n` is in it.
          have hempty := List.getElem?_eq_none_iff.mp hmsg
          simp only [hpc, Pc.handed] at hlength
          omega
      | @dispatched msg s' hpc hperf =>
          have hglobal : s'.globalCpuid = w.sched.globalCpuid :=
            (perform_cleared (h.isMessage hpc) hperf).globalCpuid
          simp only [hpc, Pc.handed] at hlength
          simp only [World.delay, World.goto, hglobal, ← hc,
            Function.update_self, hpc, List.length_append,
            List.length_singleton, Pc.lap]
          split <;> split <;> omega
      | consumed hpc =>
          simp only [hpc, Pc.handed] at hlength
          simp only [World.delay, World.goto, ← hc,
            Function.update_self, hpc, Pc.lap]
          split <;> omega
  · have hout : (w.pc c).inside = false := by simpa using hin
    obtain ⟨pc', migrations, rfl, -, hlap⟩ :=
      threadStep_outside hr hstep hout hgoes
    exact h.delay_lt hc hwaits rfl rfl rfl (hlap hc) fun hg => absurd hc.symm hg

/-- The other agents are not in its way. -/
theorem ThreadsInv.other_delay (h : ThreadsInv cfg w)
    (hc : c ≠ w.sched.globalCpuid) (hstep : ThreadStep cfg c w w') :
    w'.sched.globalCpuid = w.sched.globalCpuid ∧
    w'.delay cfg n = w.delay cfg n := by
  have hout := h.outside hc
  cases hstep with
  | sched _ hs =>
      obtain ⟨rfl, -⟩ := hs.outside_cases hout
      refine ⟨rfl, ?_⟩
      simp only [World.delay, World.goto, Function.update_of_ne hc.symm]
  | message hpc | drained hpc | dispatched hpc | consumed hpc =>
      rw [hpc] at hout
      cases hout

/-- An agent that is not told to stop does not. -/
theorem threadStep_goes (hr : r.Calm) (hgoes : w.pc c ≠ .finished)
    (hstep : threadStep cfg r c w = .ok w') {d : CpuId}
    (hd : w.pc d ≠ .finished) :
    w'.pc d ≠ .finished := by
  have hupdate : ∀ pc', pc' ≠ .finished →
      Function.update w.pc c pc' d ≠ .finished :=
    fun _ hpc' => update_pc (P := (· ≠ .finished)) hpc' hd
  by_cases hin : (w.pc c).inside = true
  · cases threadStep_cases hstep with
    | sched _ hs => exact hupdate _ (hs.ne_finished hin)
    | message | drained | dispatched | consumed =>
        exact hupdate _ Pc.noConfusion
  · obtain ⟨pc', migrations, rfl, hpc', -⟩ :=
      threadStep_outside hr hstep (by simpa using hin) hgoes
    exact hupdate _ hpc'

end Step

/-! ## Runs -/

/-- The kernel sends what it likes, stops no agent and wants no CPU back. -/
def calm (_ : World) : Action → Prop
  | .produce _ => True
  | .run _ r => r.Calm

/-- A step of the agent on `c`. -/
def Action.isBy (c : CpuId) : Action → Bool
  | .produce _ => false
  | .run d _ => d == c

/-- At work, with message number `n` sent. -/
structure AtWork (cfg : Config) (agents : Set CpuId) (n : Nat) (w : World) :
    Prop where
  reachable : ThreadsReachable cfg agents w
  goes : ∀ c ∈ agents, w.pc c ≠ .finished
  sent : n ≤ w.produced.length

section Run

variable {cfg : Config} {agents : Set CpuId} {n : Nat}
  {w w' : World} {a : Action}

theorem produced_grows (hstep : (agentThreads cfg agents).step w a w') :
    w.produced <+: w'.produced := by
  cases a with
  | produce msg =>
      obtain ⟨-, rfl⟩ := hstep
      exact List.prefix_append _ _
  | run c r =>
      cases threadStep_cases hstep.2 with
      | sched | message | drained | dispatched | consumed =>
          exact List.prefix_refl _

theorem AtWork.step (h : AtWork cfg agents n w) (ha : calm w a)
    (hstep : (agentThreads cfg agents).step w a w') :
    AtWork cfg agents n w' := by
  refine ⟨.step h.reachable trivial hstep, ?_,
    h.sent.trans (produced_grows hstep).length_le⟩
  cases a with
  | produce msg =>
      obtain ⟨-, rfl⟩ := hstep
      exact h.goes
  | run c r =>
      intro d hd
      exact threadStep_goes ha (h.goes c hstep.1) hstep.2 (h.goes d hd)

/-- A step of the global agent lowers what is left, and no step raises it or
takes the role from the agent. -/
theorem AtWork.lowers (h : AtWork cfg agents n w) (ha : calm w a)
    (hstep : (agentThreads cfg agents).step w a w') :
    w'.delay cfg n ≤ w.delay cfg n ∧
      (0 < w.delay cfg n → w'.delay cfg n < w.delay cfg n ∨
        w'.sched.globalCpuid = w.sched.globalCpuid ∧
          a.isBy w.sched.globalCpuid = false) := by
  have hinv := threadsInv_of_reachable h.reachable
  cases a with
  | produce msg =>
      obtain ⟨-, rfl⟩ := hstep
      exact ⟨Nat.le_refl _, fun _ => Or.inr ⟨rfl, rfl⟩⟩
  | run c r =>
      by_cases hc : c = w.sched.globalCpuid
      · by_cases hwaits : n ≤ w.dispatched.length
        · -- Message `n` is out, and stays so.
          have hzero : w.delay cfg n = 0 := if_pos hwaits
          have hzero' : w'.delay cfg n = 0 := by
            refine if_pos (hwaits.trans ?_)
            rcases hinv.dispatched_of_step hstep with hsame | ⟨msg, -, hmore, -⟩
            · rw [hsame]
            · rw [hmore, List.length_append]
              exact Nat.le_add_right _ _
          exact ⟨by rw [hzero, hzero'], fun hpos => by omega⟩
        · have hlt := hinv.global_lowers ha hc (h.goes c hstep.1) hstep.2 h.sent
            (Nat.not_le.mp hwaits)
          exact ⟨Nat.le_of_lt hlt, fun _ => Or.inl hlt⟩
      · obtain ⟨hglobal, hdelay⟩ :=
          hinv.other_delay (n := n) hc (threadStep_cases hstep.2)
        refine ⟨Nat.le_of_eq hdelay, fun _ => Or.inr ⟨hglobal, ?_⟩⟩
        simpa [Action.isBy] using hc

/-- A round in which the agent that is the global one at its beginning takes a
step. -/
def globalSteps (w : World) (round : List Action) : Prop :=
  ∃ a ∈ round, a.isBy w.sched.globalCpuid = true

/-- That agent is the global one until then. -/
theorem AtWork.round_lowers {actions : List Action} (h : AtWork cfg agents n w)
    (hrun : (agentThreads cfg agents).Steps calm w actions w')
    (hround : globalSteps w actions) :
    AtWork cfg agents n w' ∧
      (w'.delay cfg n < w.delay cfg n ∨ w'.delay cfg n = 0) := by
  have hwork : AtWork cfg agents n w' ∧ w'.delay cfg n ≤ w.delay cfg n := by
    refine hrun.invariant (I := fun w₁ => AtWork cfg agents n w₁ ∧
      w₁.delay cfg n ≤ w.delay cfg n) ⟨h, Nat.le_refl _⟩ ?_
    intro w₁ a w₂ hw₁ ha hstep
    exact ⟨hw₁.1.step ha hstep, (hw₁.1.lowers ha hstep).1.trans hw₁.2⟩
  refine ⟨hwork.1, ?_⟩
  by_cases hzero : w.delay cfg n = 0
  · exact Or.inr (Nat.le_zero.mp (hzero ▸ hwork.2))
  · obtain ⟨a, ha, hby⟩ := hround
    refine Or.inl (hrun.lowers (World.delay cfg n) (fun _ => 0)
      (Action.isBy w.sched.globalCpuid)
      (fun w₁ => w₁.sched.globalCpuid = w.sched.globalCpuid ∧
        0 < w₁.delay cfg n)
      h ?_ ⟨rfl, Nat.pos_of_ne_zero hzero⟩
      (List.countP_pos_iff.mpr ⟨a, ha, hby⟩))
    intro w₁ a w₂ hw₁ ha hstep
    obtain ⟨hle, hlowers⟩ := hw₁.lowers ha hstep
    refine ⟨hw₁.step ha hstep, hle, fun hhelps => ?_⟩
    rcases hlowers hhelps.2 with hlt | ⟨hsame, hother⟩
    · exact Or.inl hlt
    · by_cases hlt : w₂.delay cfg n < w₁.delay cfg n
      · exact Or.inl hlt
      · rw [hhelps.1] at hother hsame
        refine Or.inr
          ⟨⟨hsame, Nat.lt_of_lt_of_le hhelps.2 (Nat.not_lt.mp hlt)⟩, ?_⟩
        rw [hother]
        exact Nat.le_refl _

end Run

/-- The messages in the channel are all dispatched in as many rounds as there
are steps left to the global agent, while the kernel goes on sending. In a round
only the agent that is the global one at its beginning need take a step. The
CPU that the global id names is always one of the enclave. -/
theorem agents_serve {cfg : Config} {agents : Set CpuId} {w w' : World}
    {rounds : Nat} (hw : ThreadsReachable cfg agents w)
    (hgoes : ∀ c ∈ agents, w.pc c ≠ .finished)
    (hrun : (agentThreads cfg agents).Rounds calm globalSteps rounds w w')
    (hlength : w.delay cfg w.produced.length ≤ rounds) :
    w.produced <+: w'.dispatched ∧ w'.sched.globalCpuid ∈ cfg.cpus := by
  have hstart : AtWork cfg agents w.produced.length w :=
    ⟨hw, hgoes, Nat.le_refl _⟩
  have hzero : w'.delay cfg w.produced.length = 0 :=
    hrun.lowers hstart
      (fun _ _ _ h hsteps hround => h.round_lowers hsteps hround) hlength
  obtain ⟨hwork, hsent⟩ : AtWork cfg agents w.produced.length w' ∧
      w.produced <+: w'.produced := by
    refine hrun.invariant
      (I := fun w₁ => AtWork cfg agents w.produced.length w₁ ∧
        w.produced <+: w₁.produced) ⟨hstart, List.prefix_refl _⟩ ?_
    intro w₁ a w₂ hw₁ ha hstep
    exact ⟨hw₁.1.step ha hstep, hw₁.2.trans (produced_grows hstep)⟩
  have hdrain := (threadsInv_of_reachable hwork.reachable).drain
  have hout : w'.dispatched <+: w'.produced := by
    rw [hdrain.dispatched]
    exact List.take_prefix _ _
  refine ⟨List.prefix_of_prefix_length_le hsent hout ?_,
    (onEnclave_of_reachable hwork.reachable).global⟩
  by_contra hwaits
  rw [World.delay, if_neg hwaits] at hzero
  have hlength := hdrain.length_dispatched
  omega

theorem steps_runThreads {cfg : Config} {agents : Set CpuId}
    {ok : World → Action → Prop} {steps : List (CpuId × Reads)} {w w' : World}
    (hsteps : ∀ step ∈ steps, step.1 ∈ agents ∧ ∀ w, ok w (.run step.1 step.2))
    (h : runThreads cfg steps w = .ok w') :
    (agentThreads cfg agents).Steps ok w
      (steps.map fun step => .run step.1 step.2) w' := by
  induction steps generalizing w with
  | nil =>
      cases h
      exact .nil
  | cons step steps ih =>
      obtain ⟨hstep, hsteps⟩ := List.forall_mem_cons.mp hsteps
      rw [runThreads] at h
      cases hrun : threadStep cfg step.2 step.1 w with
      | error e =>
          rw [hrun] at h
          cases h
      | ok w₁ =>
          rw [hrun] at h
          exact .cons (hstep.2 w) ⟨hstep.1, hrun⟩ (ih hsteps h)

/-- Two agents at the head of their loops, and a message. -/
def twoWaiting : World :=
  ⟨twoCpusStart, fun _ => .head, 0,
    [newTask 0 true true "EngineThread/0"], 0, []⟩

theorem twoWaiting_reachable :
    ThreadsReachable twoCpus {c | c < 2} twoWaiting :=
  .step (s := ⟨twoCpusStart, fun _ => .head, 0, [], 0, []⟩) (a := .produce _)
    (.init ⟨twoCpusStart_init, fun _ => rfl, rfl, rfl, rfl⟩) trivial ⟨rfl, rfl⟩

/-- The global agent takes all the steps, whoever it is. -/
def runGlobal (cfg : Config) (r : Reads) : Nat → World → Except Abort World
  | 0, w => .ok w
  | n + 1, w => do
      let w ← threadStep cfg r w.sched.globalCpuid w
      runGlobal cfg r n w

theorem rounds_runGlobal {cfg : Config} {agents : Set CpuId} {r : Reads}
    {n : Nat} {w w' : World} (hagents : ∀ c ∈ cfg.cpus, c ∈ agents)
    (hr : r.Calm) (hw : ThreadsReachable cfg agents w)
    (h : runGlobal cfg r n w = .ok w') :
    (agentThreads cfg agents).Rounds calm globalSteps n w w' := by
  induction n generalizing w with
  | zero =>
      cases h
      exact .nil
  | succ n ih =>
      rw [runGlobal] at h
      cases hrun : threadStep cfg r w.sched.globalCpuid w with
      | error e =>
          rw [hrun] at h
          cases h
      | ok w₁ =>
          rw [hrun] at h
          have hmem := hagents _ (onEnclave_of_reachable hw).global
          have hstep : (agentThreads cfg agents).step w
              (.run w.sched.globalCpuid r) w₁ := ⟨hmem, hrun⟩
          have hround : globalSteps w [.run w.sched.globalCpuid r] :=
            ⟨_, List.mem_singleton.mpr rfl, beq_self_eq_true _⟩
          exact .cons hround (.cons hr hstep .nil)
            (ih (.step hw trivial hstep) h)

/-- The agent of CPU 0 is in the middle of a migration when the kernel leaves it
alone. It takes the two steps that are left to the hand-over and none after
them; the message that waits is dispatched by the agent of CPU 1. -/
theorem agents_serve_migrating :
    ∃ w w', ThreadsReachable twoCpus {c | c < 2} w ∧
      w.pc 0 = .vacate calmMigration 1 ∧ w.produced.length = 1 ∧
      w.dispatched = [] ∧
      (agentThreads twoCpus {c | c < 2}).Rounds calm globalSteps 12 w w' ∧
      w.produced <+: w'.dispatched := by
  have hrun : ∃ w w',
      runThreads twoCpus (List.replicate 6 (0, calmReads true)) twoWaiting =
        .ok w ∧
      w.pc 0 = .vacate calmMigration 1 ∧ w.pc 1 = .head ∧
      w.produced.length = 1 ∧ w.dispatched = [] ∧ w.delay twoCpus 1 = 12 ∧
      runGlobal twoCpus (calmReads false) 12 w = .ok w' :=
    ⟨_, _, rfl, rfl, rfl, rfl, rfl, rfl, rfl⟩
  obtain ⟨w, w', hfirst, hvacate, hhead, hproduced, hdispatched,
      hdelay, hrest⟩ :=
    hrun
  have hw : ThreadsReachable twoCpus {c | c < 2} w :=
    reach_runThreads twoWaiting_reachable (by simp) hfirst
  have hagents : ∀ c ∈ twoCpus.cpus, c ∈ {c : CpuId | c < 2} :=
    show ∀ c ∈ [0, 1], c < 2 by decide
  have hrounds := rounds_runGlobal hagents ⟨rfl, rfl⟩ hw hrest
  have hgoes : ∀ c ∈ {c : CpuId | c < 2}, w.pc c ≠ .finished := by
    intro c hc
    rcases Nat.le_one_iff_eq_zero_or_eq_one.mp (Nat.lt_succ_iff.mp hc) with
      rfl | rfl
    · rw [hvacate]
      exact Pc.noConfusion
    · rw [hhead]
      exact Pc.noConfusion
  have hlength : w.delay twoCpus w.produced.length ≤ 12 := by
    rw [hproduced, hdelay]
  exact ⟨w, w', hw, hvacate, hproduced, hdispatched, hrounds,
    (agents_serve hw hgoes hrounds hlength).1⟩

end GhostDataplane.Agent
