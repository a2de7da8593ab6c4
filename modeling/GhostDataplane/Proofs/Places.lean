import GhostDataplane.Agent.System
import Mathlib.Data.Set.Insert
import Mathlib.Order.BooleanAlgebra.Set

/-!
# Where a task is

A task is in one of five kinds of place: nowhere, in a run queue, in the
yield list, next on a CPU or current on a CPU. `At s t p` says that the
tables agree on `p` and on nothing else, and `NetTask.place` is the place
that the task's own record names. `Placed s H` is the invariant of the whole
development: every live task is exactly where its record says, except for
the tasks in `H`, which an operation has taken in hand and which are nowhere.
Between operations `H` is empty.

`Placed` says nothing about a freed task. A departure that leaves a pointer
behind keeps it for everybody else, and the operations stop when they come to
dereference the pointer. `Absent` is what a freed task should be.
-/

namespace GhostDataplane.Agent

/-- A place for a task. -/
inductive Place where
  | nowhere
  | queue
  | yielding
  | next (c : CpuId)
  | current (c : CpuId)
deriving DecidableEq

/-- The tables have the task at `p` and nowhere else. -/
structure At (s : NetScheduler) (t : TaskId) (p : Place) : Prop where
  queue : (s.runQueue ++ s.runQueueLowPriority).count t
    = if p = .queue then 1 else 0
  yielding : s.yieldingTasks.count t = if p = .yielding then 1 else 0
  next : ∀ c, (s.cpuStates c).next = some t ↔ p = .next c
  current : ∀ c, (s.cpuStates c).current = some t ↔ p = .current c

/-- The place that a task's record names, if it names one. -/
def NetTask.place (k : NetTask) : Option Place :=
  match k.runState with
  | .blocked => some .nowhere
  | .queued => some .queue
  | .yielding => some .yielding
  | .pending => k.cpu.map .next
  | .onCpu => k.cpu.map .current

/-- Every live task is where its record says, those in hand are nowhere, and
no CPU has both a current and a next task. -/
structure Placed (s : NetScheduler) (H : Set TaskId) : Prop where
  live : ∀ t k, s.task t = .live k → t ∉ H →
    ∃ p, k.place = some p ∧ At s t p
  hand : ∀ t ∈ H, At s t .nowhere ∧ ∃ k, s.task t = .live k
  exclusive : ∀ c, (s.cpuStates c).current = none ∨ (s.cpuStates c).next = none

/-- The pointer of a task that is not live and that nothing refers to. -/
structure Absent (s : NetScheduler) (t : TaskId) : Prop where
  notLive : ∀ k, s.task t ≠ .live k
  nowhere : At s t .nowhere

/-! ## Reading a place back -/

theorem At.not_mem_runQueue {s : NetScheduler} {t : TaskId} {p : Place}
    (h : At s t p) (hp : p ≠ .queue) : t ∉ s.runQueue := by
  intro hmem
  have hq := h.queue
  rw [if_neg hp, List.count_eq_zero, List.mem_append] at hq
  exact hq (Or.inl hmem)

theorem At.not_mem_lowPriority {s : NetScheduler} {t : TaskId} {p : Place}
    (h : At s t p) (hp : p ≠ .queue) : t ∉ s.runQueueLowPriority := by
  intro hmem
  have hq := h.queue
  rw [if_neg hp, List.count_eq_zero, List.mem_append] at hq
  exact hq (Or.inr hmem)

theorem At.not_mem_yielding {s : NetScheduler} {t : TaskId} {p : Place}
    (h : At s t p) (hp : p ≠ .yielding) : t ∉ s.yieldingTasks := by
  have hy := h.yielding
  rw [if_neg hp, List.count_eq_zero] at hy
  exact hy

/-- A task is in one place only. -/
theorem At.unique {s : NetScheduler} {t : TaskId} {p q : Place}
    (hp : At s t p) (hq : At s t q) : p = q := by
  cases p with
  | next c => exact ((hq.next c).mp ((hp.next c).mpr rfl)).symm
  | current c => exact ((hq.current c).mp ((hp.current c).mpr rfl)).symm
  | nowhere | queue | yielding =>
      cases q with
      | next c => exact (hp.next c).mp ((hq.next c).mpr rfl)
      | current c => exact (hp.current c).mp ((hq.current c).mpr rfl)
      | nowhere | queue | yielding =>
          have h1 := hp.queue.symm.trans hq.queue
          have h2 := hp.yielding.symm.trans hq.yielding
          simp_all

theorem Placed.at_next {s : NetScheduler} {H : Set TaskId} {t : TaskId}
    {k : NetTask} {c : CpuId} (h : Placed s H) (hk : s.task t = .live k)
    (hn : (s.cpuStates c).next = some t) :
    t ∉ H ∧ k.runState = .pending ∧ k.cpu = some c := by
  have hH : t ∉ H := fun hmem => by
    have := ((h.hand t hmem).1.next c).mp hn
    cases this
  obtain ⟨p, hp, hat⟩ := h.live t k hk hH
  have hpc := (hat.next c).mp hn
  subst hpc
  unfold NetTask.place at hp
  split at hp <;> simp_all

theorem Placed.at_current {s : NetScheduler} {H : Set TaskId} {t : TaskId}
    {k : NetTask} {c : CpuId} (h : Placed s H) (hk : s.task t = .live k)
    (hn : (s.cpuStates c).current = some t) :
    t ∉ H ∧ k.runState = .onCpu ∧ k.cpu = some c := by
  have hH : t ∉ H := fun hmem => by
    have := ((h.hand t hmem).1.current c).mp hn
    cases this
  obtain ⟨p, hp, hat⟩ := h.live t k hk hH
  have hpc := (hat.current c).mp hn
  subst hpc
  unfold NetTask.place at hp
  split at hp <;> simp_all

/-- A task whose record says it runs is current on the CPU it names. -/
theorem Placed.current_of_onCpu {s : NetScheduler} {H : Set TaskId}
    {t : TaskId} {k : NetTask} (h : Placed s H) (hk : s.task t = .live k)
    (hH : t ∉ H) (hs : k.runState = .onCpu) :
    ∃ c, k.cpu = some c ∧ (s.cpuStates c).current = some t := by
  obtain ⟨p, hp, hat⟩ := h.live t k hk hH
  rw [NetTask.place, hs] at hp
  obtain ⟨c, hc, rfl⟩ := Option.map_eq_some_iff.mp hp
  exact ⟨c, hc, (hat.current c).mpr rfl⟩

theorem Placed.at_blocked {s : NetScheduler} {H : Set TaskId} {t : TaskId}
    {k : NetTask} (h : Placed s H) (hk : s.task t = .live k) (hH : t ∉ H)
    (hs : k.runState = .blocked) : At s t .nowhere := by
  obtain ⟨p, hp, hat⟩ := h.live t k hk hH
  rw [NetTask.place, hs] at hp
  cases hp
  exact hat

theorem Placed.at_queued {s : NetScheduler} {H : Set TaskId} {t : TaskId}
    {k : NetTask} (h : Placed s H) (hk : s.task t = .live k) (hH : t ∉ H)
    (hs : k.runState = .queued) : At s t .queue := by
  obtain ⟨p, hp, hat⟩ := h.live t k hk hH
  rw [NetTask.place, hs] at hp
  cases hp
  exact hat

/-- A live task found in a run queue is one whose record says so. -/
theorem Placed.queued_of_mem {s : NetScheduler} {H : Set TaskId} {t : TaskId}
    {k : NetTask} (h : Placed s H) (hk : s.task t = .live k)
    (hmem : t ∈ s.runQueue ++ s.runQueueLowPriority) :
    t ∉ H ∧ k.runState = .queued := by
  have hpos := List.count_pos_iff.mpr hmem
  have hH : t ∉ H := fun ht => by
    have := (h.hand t ht).1.queue
    simp at this
    rw [List.count_append] at hpos
    omega
  obtain ⟨p, hp, hat⟩ := h.live t k hk hH
  have hpq : p = .queue := by
    by_contra hne
    have := hat.queue
    rw [if_neg hne] at this
    omega
  subst hpq
  refine ⟨hH, ?_⟩
  unfold NetTask.place at hp
  split at hp <;> simp_all

theorem Placed.yielding_of_mem {s : NetScheduler} {H : Set TaskId}
    {t : TaskId} {k : NetTask} (h : Placed s H) (hk : s.task t = .live k)
    (hmem : t ∈ s.yieldingTasks) : t ∉ H ∧ k.runState = .yielding := by
  have hpos := List.count_pos_iff.mpr hmem
  have hH : t ∉ H := fun ht => by
    have := (h.hand t ht).1.yielding
    simp at this
    omega
  obtain ⟨p, hp, hat⟩ := h.live t k hk hH
  have hpq : p = .yielding := by
    by_contra hne
    have := hat.yielding
    rw [if_neg hne] at this
    omega
  subst hpq
  refine ⟨hH, ?_⟩
  unfold NetTask.place at hp
  split at hp <;> simp_all

theorem Placed.mem_yielding {s : NetScheduler} {H : Set TaskId} {t : TaskId}
    {k : NetTask} (h : Placed s H) (hk : s.task t = .live k) (hH : t ∉ H)
    (hs : k.runState = .yielding) : t ∈ s.yieldingTasks := by
  obtain ⟨p, hp, hat⟩ := h.live t k hk hH
  rw [NetTask.place, hs] at hp
  cases hp
  have hcount := hat.yielding
  rw [if_pos rfl] at hcount
  exact List.count_pos_iff.mp (by omega)

/-! ## Places and the table updates -/

/-- A place depends on the queues and on what each CPU has as current and
next, and on nothing else. -/
theorem At.congr {s s' : NetScheduler} {t : TaskId} {p : Place}
    (hq : s'.runQueue = s.runQueue)
    (hl : s'.runQueueLowPriority = s.runQueueLowPriority)
    (hy : s'.yieldingTasks = s.yieldingTasks)
    (hc : ∀ c, (s'.cpuStates c).current = (s.cpuStates c).current ∧
      (s'.cpuStates c).next = (s.cpuStates c).next)
    (h : At s t p) : At s' t p := by
  refine ⟨by rw [hq, hl]; exact h.queue, by rw [hy]; exact h.yielding, ?_, ?_⟩
  · intro c
    rw [(hc c).2]
    exact h.next c
  · intro c
    rw [(hc c).1]
    exact h.current c

theorem count_pushEnd (q : List TaskId) (t u : TaskId) (k : NetTask) :
    (NetScheduler.pushEnd q t k).count u =
      q.count u + if u = t then 1 else 0 := by
  unfold NetScheduler.pushEnd
  by_cases hu : u = t
  · subst hu
    split <;> simp
  · have hne : t ≠ u := Ne.symm hu
    split <;> simp [hne]

theorem count_push (s : NetScheduler) (t u : TaskId) (k : NetTask) :
    ((s.push t k).runQueue ++ (s.push t k).runQueueLowPriority).count u =
      (s.runQueue ++ s.runQueueLowPriority).count u +
        if u = t then 1 else 0 := by
  simp only [NetScheduler.push, List.count_append]
  split <;> rw [count_pushEnd] <;> omega

theorem mem_pushEnd {q : List TaskId} {t u : TaskId} {k : NetTask} :
    u ∈ NetScheduler.pushEnd q t k ↔ u = t ∨ u ∈ q := by
  unfold NetScheduler.pushEnd
  split
  · exact List.mem_cons
  · rw [List.mem_append, List.mem_singleton, or_comm]

theorem mem_push {s : NetScheduler} {t u : TaskId} {k : NetTask} :
    u ∈ (s.push t k).runQueue ++ (s.push t k).runQueueLowPriority ↔
      u = t ∨ u ∈ s.runQueue ++ s.runQueueLowPriority := by
  rw [← List.count_pos_iff, count_push, ← List.count_pos_iff]
  split <;> simp_all

/-- Entering a run queue moves the task that enters and no other. -/
theorem At.push {s : NetScheduler} {t u : TaskId} {k : NetTask} {p : Place}
    (h : At s u p) (hne : u ≠ t) : At (s.push t k) u p := by
  refine ⟨?_, h.yielding, h.next, h.current⟩
  rw [count_push, if_neg hne]
  exact h.queue

theorem At.push_self {s : NetScheduler} {t : TaskId} {k : NetTask}
    (h : At s t .nowhere) : At (s.push t k) t .queue := by
  refine ⟨?_, by simpa [NetScheduler.push] using h.yielding,
    by simpa [NetScheduler.push] using h.next,
    by simpa [NetScheduler.push] using h.current⟩
  rw [count_push, h.queue]
  simp

theorem At.setTask {s : NetScheduler} {t u : TaskId} {k : NetTask} {p : Place}
    (h : At s u p) : At (s.setTask t k) u p :=
  ⟨h.queue, h.yielding, h.next, h.current⟩

@[simp] theorem setTask_task_self (s : NetScheduler) (t : TaskId)
    (k : NetTask) : (s.setTask t k).task t = .live k :=
  Function.update_self t _ s.task

theorem setTask_task_ne {s : NetScheduler} {t u : TaskId} {k : NetTask}
    (hne : u ≠ t) : (s.setTask t k).task u = s.task u :=
  Function.update_of_ne hne _ s.task

@[simp] theorem setTask_setTask (s : NetScheduler) (t : TaskId)
    (k k' : NetTask) : (s.setTask t k).setTask t k' = s.setTask t k' := by
  simp only [NetScheduler.setTask, Function.update_idem]

@[simp] theorem setCpu_runQueue (s : NetScheduler) (c : CpuId)
    (cs : CpuState) : (s.setCpu c cs).runQueue = s.runQueue := rfl

@[simp] theorem setCpu_runQueueLowPriority (s : NetScheduler) (c : CpuId)
    (cs : CpuState) :
    (s.setCpu c cs).runQueueLowPriority = s.runQueueLowPriority := rfl

@[simp] theorem setCpu_yieldingTasks (s : NetScheduler) (c : CpuId)
    (cs : CpuState) : (s.setCpu c cs).yieldingTasks = s.yieldingTasks := rfl

@[simp] theorem setCpu_self (s : NetScheduler) (c : CpuId) (cs : CpuState) :
    (s.setCpu c cs).cpuStates c = cs :=
  Function.update_self c _ s.cpuStates

theorem setCpu_ne {s : NetScheduler} {c d : CpuId} {cs : CpuState}
    (hne : d ≠ c) : (s.setCpu c cs).cpuStates d = s.cpuStates d :=
  Function.update_of_ne hne _ s.cpuStates

/-- Writing a CPU's record moves only the tasks it names before or after. -/
theorem At.setCpu {s : NetScheduler} {u : TaskId} {p : Place} {c : CpuId}
    {cs : CpuState} (h : At s u p)
    (hcur : cs.current = some u ↔ (s.cpuStates c).current = some u)
    (hnext : cs.next = some u ↔ (s.cpuStates c).next = some u) :
    At (s.setCpu c cs) u p := by
  refine ⟨h.queue, h.yielding, ?_, ?_⟩
  · intro d
    by_cases hd : d = c
    · subst hd
      rw [setCpu_self, hnext]
      exact h.next d
    · rw [setCpu_ne hd]
      exact h.next d
  · intro d
    by_cases hd : d = c
    · subst hd
      rw [setCpu_self, hcur]
      exact h.current d
    · rw [setCpu_ne hd]
      exact h.current d

end GhostDataplane.Agent
