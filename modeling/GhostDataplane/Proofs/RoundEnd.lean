import GhostDataplane.Proofs.Loop
import GhostDataplane.Proofs.Placement

/-!
# What a round leaves behind

A round ends for one of two reasons. Either no CPU is left to offer, or both
run queues are empty. The set of idle CPUs only shrinks, so a CPU that is
still in it when the loop ends was in it in every turn. A task that was taken
off a queue, found ready and allowed on that CPU then had a CPU to go to, and
`PickNextCpu` finds one whenever there is one. The task is pending from that
turn on: no later turn touches a CPU with a pending task, since the idle CPUs
have none and the preemption candidates have a current one instead.

The tasks that yielded go back to the run queues last. They are exactly the
tasks whose record says so, and all of them are put back.
-/

namespace GhostDataplane.Agent

open GhostDataplane.Lib

/-! ## Termination -/

/-- The loop takes at most one turn for each task that is queued when it
begins and for each preemption candidate, in any state whatsoever; given one
turn more it returns or stops at a failed check. After a round nothing is
left of the yielding tasks. -/
theorem assignment_loop_terminates (cfg : Config) (env : RoundEnv) :
    (∀ a s ts a' s', Turns cfg env a s ts a' s' →
      ts.length ≤ s.runQueue.length + s.runQueueLowPriority.length +
        a.availCpusLowPriority.ids.length) ∧
    (∀ a s fuel, s.runQueue.length + s.runQueueLowPriority.length +
        a.availCpusLowPriority.ids.length < fuel →
      assignLoop cfg env fuel a s ≠ .error .outOfFuel ∧
      ∀ a' s', assignLoop cfg env fuel a s = .ok (a', s') ↔
        ∃ ts, Turns cfg env a s ts a' s' ∧ Exhausted a' s') ∧
    (∀ s, globalSchedule cfg env s ≠ .error .outOfFuel) ∧
    ∀ s s', globalSchedule cfg env s = .ok ((), s') →
      s'.yieldingTasks = [] ∧
      (Reachable cfg s → ∀ t k, s'.task t = .live k →
        k.runState ≠ .yielding) := by
  refine ⟨fun a s ts a' s' h => ?_, fun a s fuel hfuel => ⟨?_, ?_⟩, ?_, ?_⟩
  · have hv := h.variant
    unfold turnsLeft at hv
    omega
  · exact assignLoop_avoids hfuel
  · intro a' s'
    rw [assignLoop_run]
    constructor
    · rintro ⟨ts, hturns, hend, -⟩
      exact ⟨ts, hturns, hend⟩
    · rintro ⟨ts, hturns, hend⟩
      have hv := hturns.variant
      unfold turnsLeft at hv
      exact ⟨ts, hturns, hend, by omega⟩
  · exact fun s => globalSchedule_avoids
  · intro s s' h
    obtain ⟨scan, s₁, a, s₂, s₃, s₄, hround⟩ := globalSchedule_round h
    have hnone : s'.yieldingTasks = [] := by rw [hround.finished]; rfl
    refine ⟨hnone, fun hreach t k hk hy => ?_⟩
    have hp := (sound_of_reachable hreach).placed
    have hmem := (hp.moves (globalSchedule_moves hp h)).mem_yielding hk
      (Set.notMem_empty t) hy
    rw [hnone] at hmem
    cases hmem

/-! ## Work conservation -/

section Conserving

variable {cfg : Config} {env : RoundEnv} {a a' : Assign}
  {s s₁ s' : NetScheduler} {n : TaskId} {k : NetTask}

theorem AssignStep.mem_availCpus {c : CpuId}
    (h : AssignStep cfg env n k s a s' a') (hc : c ∈ a'.availCpus) :
    c ∈ a.availCpus := by
  cases h with
  | stale | replaced | unplaced => exact hc
  | batched => exact (CpuList.mem_clear.mp hc).1

/-- A pending task stays pending. -/
theorem AssignStep.next_kept {d : CpuId} {t : TaskId} {H : Set TaskId}
    (h : AssignStep cfg env n k s a s' a') (hp : Placed s H)
    (hn : (s.cpuStates d).next = some t) : (s'.cpuStates d).next = some t := by
  cases h with
  | stale | unplaced => exact hn
  | @batched c _ _ hnext _ =>
      have hdc : d ≠ c := by
        rintro rfl
        cases hnext.symm.trans hn
      rw [openBatched_confined.cpuStates d hdc]
      exact hn
  | @replaced c p kp _ _ _ _ hrep =>
      have hdc : d ≠ c := by
        rintro rfl
        rcases hp.exclusive d with hnone | hnone
        · cases hrep.current.symm.trans hnone
        · cases hn.symm.trans hnone
      rw [hrep.confined.cpuStates d hdc]
      exact hn

/-- A task that is ready and allowed on an idle CPU is given one. -/
theorem AssignStep.placed_of_idle {c : CpuId}
    (h : AssignStep cfg env n k s a s' a') (hready : Ready env n k)
    (hc : c ∈ a.availCpus)
    (hallowed : cfg.enforceAffinityMask = true → c ∈ k.allowedCpulist) :
    ∃ d, (s'.cpuStates d).next = some n := by
  have hmem := mem_allowedCpus.mpr ⟨hc, hallowed⟩
  cases h with
  | stale hstale => exact absurd hready hstale
  | @batched d => exact ⟨d, congrArg CpuState.next (setCpu_self s d _)⟩
  | replaced _ hidle _ _ | unplaced _ hidle _ =>
      exact absurd hmem (pickNextCpu_none hidle c)

theorem Turns.mem_availCpus {ts : List Turn} {c : CpuId}
    (h : Turns cfg env a s ts a' s') (hp : Placed s ∅)
    (hc : c ∈ a'.availCpus) : c ∈ a.availCpus := by
  induction h with
  | nil => exact hc
  | cons _ hd _ hassign _ ih =>
      obtain ⟨k, ht, has⟩ := assignTask_taken hp hd hassign
      exact has.mem_availCpus (ih (hp.moves (has.moves ht)) hc)

theorem Turns.next_kept {ts : List Turn} {d : CpuId} {t : TaskId}
    (h : Turns cfg env a s ts a' s') (hp : Placed s ∅)
    (hn : (s.cpuStates d).next = some t) : (s'.cpuStates d).next = some t := by
  induction h with
  | nil => exact hn
  | cons _ hd _ hassign _ ih =>
      obtain ⟨k, ht, has⟩ := assignTask_taken hp hd hassign
      refine ih (hp.moves (has.moves ht)) (has.next_kept ht.placed ?_)
      rw [ht.cpuStates]
      exact hn

/-- Of the tasks that were ready, each that could have had a CPU which nobody
took has one. -/
theorem Turns.conserving {ts : List Turn} {c : CpuId}
    (h : Turns cfg env a s ts a' s') (hp : Placed s ∅)
    (hc : c ∈ a'.availCpus) :
    ∀ t ∈ ts, Ready env t.next t.task →
      (cfg.enforceAffinityMask = true → c ∈ t.task.allowedCpulist) →
      ∃ d, (s'.cpuStates d).next = some t.next := by
  induction h with
  | nil => exact List.forall_mem_nil _
  | @cons a a₁ a' s s₁ s₂ s' n k ts _ hd hk hassign hrest ih =>
      obtain ⟨k', ht, has⟩ := assignTask_taken hp hd hassign
      cases hk.symm.trans ht.live
      have hp₂ := hp.moves (has.moves ht)
      intro t hmem hready hallowed
      rcases List.mem_cons.mp hmem with rfl | hmem
      · have hidle := has.mem_availCpus (hrest.mem_availCpus hp₂ hc)
        obtain ⟨d, hnext⟩ := has.placed_of_idle hready hidle hallowed
        exact ⟨d, hrest.next_kept hp₂ hnext⟩
      · exact ih hp₂ hc t hmem hready hallowed

end Conserving

/-- The task is on no CPU, and no transaction is to bring it to one. -/
def WithoutCpu (s : NetScheduler) (t : TaskId) : Prop :=
  ∀ c, (s.cpuStates c).current ≠ some t ∧ (s.cpuStates c).next ≠ some t

/-- If a CPU is still idle when the loop of a round ends, the run queues are
empty, and the tasks that the round took, found ready and left without a CPU
are not allowed on it. -/
theorem round_work_conserving {cfg : Config} {env : RoundEnv}
    {s s' : NetScheduler} (h : Reachable cfg s)
    (hsched : globalSchedule cfg env s = .ok ((), s')) :
    ∃ scan s₁ ts a s₂ s₃ s₄, Round cfg env s scan s₁ a s₂ s₃ s₄ s' ∧
      Turns cfg env ⟨scan.availCpus, scan.availCpusLowPriority, .emptyCpuList⟩
        s₁ ts a s₂ ∧
      ∀ c ∈ a.availCpus,
        (∀ t ∈ ts, Ready env t.next t.task → WithoutCpu s₂ t.next →
          cfg.enforceAffinityMask = true ∧ c ∉ t.task.allowedCpulist) ∧
        s₃.runQueue = [] ∧ s₃.runQueueLowPriority = [] := by
  obtain ⟨scan, s₁, a, s₂, s₃, s₄, hround⟩ := globalSchedule_round hsched
  obtain ⟨ts, hturns, hend, -⟩ := assignLoop_run.mp hround.assigned
  have hp := (sound_of_reachable h).placed
  have hp₁ := hp.moves (hround.moves_scan hp)
  refine ⟨scan, s₁, ts, a, s₂, s₃, s₄, hround, hturns, fun c hc => ⟨?_, ?_⟩⟩
  · intro t ht hready hwithout
    by_contra hcon
    have hallowed : cfg.enforceAffinityMask = true →
        c ∈ t.task.allowedCpulist :=
      fun he => not_not.mp fun hnot => hcon ⟨he, hnot⟩
    obtain ⟨d, hnext⟩ := hturns.conserving hp₁ hc t ht hready hallowed
    exact (hwithout d).2 hnext
  · have hmore :
        (a.availCpus.isEmpty && a.availCpusLowPriority.isEmpty) ≠ true := by
      intro hempty
      rw [Bool.and_eq_true] at hempty
      exact CpuList.isEmpty_iff.mp hempty.1 c hc
    obtain ⟨hq, hl, -⟩ := dequeue_none (hend.resolve_left hmore)
    rcases hround.submitted with rfl | rfl
    · exact ⟨hq, hl⟩
    · exact ⟨hq, hl⟩

/-- Two tasks that may only run on the first two CPUs: one of them gets the
second CPU, and the third stays idle. -/
theorem round_work_conserving_idle :
    ∃ s s' scan s₁ ts a s₂ s₃ s₄, Reachable threeCpus s ∧
      Round threeCpus calmRound s scan s₁ a s₂ s₃ s₄ s' ∧
      Turns threeCpus calmRound
        ⟨scan.availCpus, scan.availCpusLowPriority, .emptyCpuList⟩ s₁ ts a s₂ ∧
      2 ∈ a.availCpus ∧ s₂.yieldingTasks = [1] ∧
      (∀ t ∈ ts, Ready calmRound t.next t.task → WithoutCpu s₂ t.next →
        2 ∉ t.task.allowedCpulist) ∧
      s₃.runQueue = [] ∧ s₃.runQueueLowPriority = [] := by
  have hpass : (performAll threeCpus
      [newTask 0 false true "app", newTask 1 false true "app"]).passes
      twoCpusStart (fun _ s =>
        (globalSchedule threeCpus calmRound).passes s (fun _ _ => true) &&
        (scanCpus calmRound threeCpus.cpus.ids
          ⟨.emptyCpuList, .emptyCpuList, 0⟩).passes s (fun scan s₁ =>
            (assignLoop threeCpus calmRound
              (s₁.runQueue.length + s₁.runQueueLowPriority.length +
                scan.availCpusLowPriority.ids.length + 1)
              ⟨scan.availCpus, scan.availCpusLowPriority,
                .emptyCpuList⟩).passes s₁
              (fun a s₂ => decide (2 ∈ a.availCpus) &&
                s₂.yieldingTasks == [1]))) = true := by
    decide +kernel
  obtain ⟨_, s, hrun, hpass⟩ := Checked.passes_iff.mp hpass
  obtain ⟨hsched, hpass⟩ := Bool.and_eq_true_iff.mp hpass
  obtain ⟨_, s', hsched, -⟩ := Checked.passes_iff.mp hsched
  obtain ⟨scan, s₁, hscan, hpass⟩ := Checked.passes_iff.mp hpass
  obtain ⟨a, s₂, hloop, hpass⟩ := Checked.passes_iff.mp hpass
  simp only [Bool.and_eq_true, decide_eq_true_eq, beq_iff_eq] at hpass
  obtain ⟨hidle, hy⟩ := hpass
  have hreach : Reachable threeCpus s :=
    reach_performAll (.init threeCpus_init) (fun _ _ _ => trivial) hrun
  obtain ⟨scan', s₁', ts, a', s₂', s₃, s₄, hround, hturns, hall⟩ :=
    round_work_conserving hreach hsched
  cases hscan.symm.trans hround.scanned
  cases hloop.symm.trans hround.assigned
  obtain ⟨hleft, hq, hl⟩ := hall 2 hidle
  exact ⟨s, s', scan, s₁, ts, a, s₂, s₃, s₄, hreach, hround, hturns, hidle, hy,
    fun t ht hready hwithout => (hleft t ht hready hwithout).2, hq, hl⟩

end GhostDataplane.Agent
