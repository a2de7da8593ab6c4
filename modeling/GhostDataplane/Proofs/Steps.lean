import GhostDataplane.Proofs.Migrate

/-!
# One operation of a run

`perform_step` says once what a successful operation can have been. Almost
all are sequences of moves that end with empty hands. The three that are not
create or free a task: `TaskNew` puts a new record into the tables, writes
the priority after it has queued the task, and counts it; `TaskDead` and
`TaskDeparted` free the record and take it off the count, and neither of the
two looks where the task is.
-/

namespace GhostDataplane.Agent

open GhostDataplane.Lib

/-- The record that `TaskNew` enqueues a runnable task with. -/
def TaskNewMsg.first (msg : TaskNewMsg) (uninitPriority : Bool) : NetTask :=
  { highPriority := uninitPriority, runtime := msg.runtime
    seqnum := msg.seqnum }

/-- The record of a new task at the end of `TaskNew`. -/
def TaskNewMsg.final (cfg : Config) (msg : TaskNewMsg) (allowed : CpuList)
    (runState : RunState) : NetTask :=
  { highPriority := strContains msg.name "EngineThread"
    runState := runState
    runtime := msg.runtime
    seqnum := msg.seqnum
    allowedCpulist := allowCpus cfg.cpus.ids allowed .emptyCpuList }

/-- The tables with a new task counted in. -/
def NetScheduler.enter (s : NetScheduler) (t : TaskId) (k : NetTask) :
    NetScheduler := { s.setTask t k with numTasks := s.numTasks + 1 }

/-- The tables after the task's record was freed. -/
def NetScheduler.free (s : NetScheduler) (t : TaskId) : NetScheduler :=
  { s with
    task := Function.update s.task t .freed
    numTasks := s.numTasks - 1 }

/-- What `TaskDeparted` leaves: the record is freed, and a switchto chain may
have ended with the departure. -/
def Departs (s : NetScheduler) (t : TaskId) (s' : NetScheduler) : Prop :=
  s' = s.free t ∨ ∃ c, s' = (s.setInSwitchto c false).free t

/-- All that an operation can do. -/
inductive Step (cfg : Config) (s : NetScheduler) :
    Op → NetScheduler → Prop where
  | moves {op : Op} {s' : NetScheduler} (hop : ∀ t p msg, op ≠ .taskNew t p msg)
      (hm : Moves s ∅ s' ∅) : Step cfg s op s'
  | new {t : TaskId} {uninitPriority : Bool} {msg : TaskNewMsg}
      {allowed : CpuList} (hfresh : s.task t = .unborn)
      (hrun : msg.runnable = false) :
      Step cfg s (.taskNew t uninitPriority msg)
        (s.enter t (msg.final cfg allowed .blocked))
  -- The queue is chosen before the priority is adjusted.
  | newRunnable {t : TaskId} {uninitPriority : Bool} {msg : TaskNewMsg}
      {allowed : CpuList} (hfresh : s.task t = .unborn)
      (hrun : msg.runnable = true) :
      Step cfg s (.taskNew t uninitPriority msg)
        ((s.enter t (msg.final cfg allowed .queued)).push t
          (msg.first uninitPriority))
  | dead {t : TaskId} {n : Nat} {k : NetTask} (hk : s.task t = .live k)
      (hb : k.runState = .blocked) : Step cfg s (.taskDead t n) (s.free t)
  | departed {t : TaskId} {msg : TaskOffCpuMsg} {k : NetTask}
      {s' : NetScheduler} (hk : s.task t = .live k) (hd : Departs s t s') :
      Step cfg s (.taskDeparted t msg) s'

theorem free_setTask {s : NetScheduler} {t : TaskId} {k : NetTask} :
    (s.setTask t k).free t = s.free t := by
  simp only [NetScheduler.free, NetScheduler.setTask, Function.update_idem]

theorem freeTask_ok {t : TaskId} {s s' : NetScheduler} {u : Unit}
    (h : freeTask t s = .ok (u, s')) : s' = s.free t := by
  obtain ⟨k, -, h⟩ := bind_deref.mp h
  cases Checked.modify_ok.mp h
  rfl

theorem advance_ok {t : TaskId} {n : Nat} {s s' : NetScheduler} {u : Unit}
    (h : advance t n s = .ok (u, s')) :
    ∃ k, s.task t = .live k ∧ s' = s.setTask t { k with seqnum := n } := by
  obtain ⟨k, hk, hr⟩ := modifyTask_ok.mp h
  cases hr
  exact ⟨k, hk, rfl⟩

theorem taskDead_ok {cfg : Config} {t : TaskId} {n : Nat}
    {s s' : NetScheduler} (h : perform cfg (.taskDead t n) s = .ok ((), s')) :
    ∃ k, s.task t = .live k ∧ k.runState = .blocked ∧ s' = s.free t := by
  obtain ⟨_, s₁, hadv, h⟩ := Checked.bind_ok.mp h
  obtain ⟨k, hk, rfl⟩ := advance_ok hadv
  simp only [taskDead, bind_deref, bind_check, setTask_task_self,
    Slot.live.injEq, exists_eq_left'] at h
  obtain ⟨hb, h⟩ := h
  cases freeTask_ok h
  exact ⟨k, hk, of_decide_eq_true hb, free_setTask⟩

theorem taskDeparted_ok {cfg : Config} {t : TaskId} {msg : TaskOffCpuMsg}
    {s s' : NetScheduler}
    (h : perform cfg (.taskDeparted t msg) s = .ok ((), s')) :
    ∃ k, s.task t = .live k ∧ Departs s t s' := by
  obtain ⟨_, s₁, hadv, h⟩ := Checked.bind_ok.mp h
  obtain ⟨k, hk, rfl⟩ := advance_ok hadv
  obtain ⟨_, s₂, hleave, h⟩ := Checked.bind_ok.mp h
  cases freeTask_ok h
  refine ⟨k, hk, ?_⟩
  split at hleave
  · simp only [cpuLeavingSwitchto, bind_check, Checked.bind_get,
      Checked.modify_ok] at hleave
    obtain ⟨-, -, -, hr⟩ := hleave
    cases hr
    have hswap : ((s.setTask t { k with seqnum := msg.seqnum }).setInSwitchto
        msg.cpu.toNat false).free t =
        (s.setInSwitchto msg.cpu.toNat false).free t :=
      free_setTask (s := s.setInSwitchto msg.cpu.toNat false)
    exact Or.inr ⟨msg.cpu.toNat, hswap⟩
  · cases Checked.pure_ok.mp hleave
    exact Or.inl free_setTask

theorem allocate_ok {t : TaskId} {p : Bool} {s s' : NetScheduler} {u : Unit}
    (h : allocate t p s = .ok (u, s')) :
    s.task t = .unborn ∧ s' = s.setTask t { highPriority := p } := by
  unfold allocate at h
  split at h
  · next hfresh =>
      injection h with h
      injection h with _ hs
      exact ⟨hfresh, hs.symm⟩
  · cases h

theorem enter_push {s : NetScheduler} {t : TaskId} {k k' l : NetTask} :
    ((s.setTask t k).push t l).enter t k' = (s.enter t k').push t l := by
  simp only [NetScheduler.enter, NetScheduler.push, NetScheduler.setTask,
    Function.update_idem]

/-- The second half of `TaskNew`, after the task may have been queued. -/
def enter (cfg : Config) (t : TaskId) (msg : TaskNewMsg) : Sched Unit :=
  match msg.affinity with
  | none => Checked.throw (.check .getAffinity)
  | some allowed => do
      check (allowed.ids.length ≤ cfg.maxCpus) .affinityCount
      modifyTask t fun k =>
        { k with
          allowedCpulist := allowCpus cfg.cpus.ids allowed k.allowedCpulist }
      let k ← deref t
      check (!k.allowedCpulist.isEmpty) .allowedNonempty
      adjustTaskPriority t msg.name
      Checked.modify fun s => { s with numTasks := s.numTasks + 1 }

theorem enter_ok {cfg : Config} {t : TaskId} {msg : TaskNewMsg}
    {s s' : NetScheduler} {k : NetTask} (hk : s.task t = .live k)
    (h : enter cfg t msg s = .ok ((), s')) :
    ∃ allowed, s' = s.enter t
      { k with
        allowedCpulist := allowCpus cfg.cpus.ids allowed k.allowedCpulist
        highPriority := strContains msg.name "EngineThread" } := by
  unfold enter at h
  cases haff : msg.affinity with
  | none =>
      simp only [haff] at h
      exact (Checked.throw_ok.mp h).elim
  | some allowed =>
      simp only [haff] at h
      obtain ⟨-, h⟩ := bind_check.mp h
      rw [modifyTask_bind hk, deref_bind (setTask_task_self _ _ _)] at h
      obtain ⟨-, h⟩ := bind_check.mp h
      rw [adjustTaskPriority, modifyTask_bind (setTask_task_self _ _ _),
        setTask_setTask] at h
      cases Checked.modify_ok.mp h
      exact ⟨allowed, rfl⟩

theorem taskNew_step {cfg : Config} {t : TaskId} {p : Bool} {msg : TaskNewMsg}
    {s s' : NetScheduler}
    (h : perform cfg (.taskNew t p msg) s = .ok ((), s')) :
    Step cfg s (.taskNew t p msg) s' := by
  rw [perform, Checked.bind_ok] at h
  obtain ⟨_, s₁, halloc, h⟩ := h
  obtain ⟨hfresh, rfl⟩ := allocate_ok halloc
  rw [taskNew, Checked.bind_ok] at h
  obtain ⟨_, s₂, hrt, h⟩ := h
  obtain ⟨k, hk, -, rfl⟩ := updateTaskRuntime_ok hrt
  rw [setTask_task_self] at hk
  cases hk
  rw [setTask_setTask, modifyTask_bind (setTask_task_self _ _ _),
    setTask_setTask, Checked.bind_ok] at h
  obtain ⟨_, s₃, henq, h⟩ := h
  have henter : enter cfg t msg s₃ = .ok ((), s') := h
  cases hrun : msg.runnable with
  | false =>
      simp only [hrun, Bool.false_eq_true, if_false] at henq
      cases Checked.pure_ok.mp henq
      obtain ⟨allowed, rfl⟩ := enter_ok (setTask_task_self _ _ _) henter
      rw [NetScheduler.enter, setTask_setTask]
      exact .new hfresh hrun
  | true =>
      simp only [hrun, if_true] at henq
      rw [enqueue_eq (setTask_task_self _ _ _), setTask_setTask] at henq
      cases henq
      obtain ⟨allowed, rfl⟩ :=
        enter_ok (by exact setTask_task_self _ t _) henter
      rw [enter_push]
      exact .newRunnable hfresh hrun

theorem perform_step {cfg : Config} {op : Op} {s s' : NetScheduler}
    (hp : Placed s ∅) (h : perform cfg op s = .ok ((), s')) :
    Step cfg s op s' := by
  -- Every message about a task begins by advancing its sequence number.
  have hadv : ∀ {t n f}, (do advance t n; f : Sched Unit) s = .ok ((), s') →
      (∀ s₁, Placed s₁ ∅ → f s₁ = .ok ((), s') → Moves s₁ ∅ s' ∅) →
      Moves s ∅ s' ∅ := by
    intro t n f h hf
    obtain ⟨_, s₁, ha, h⟩ := Checked.bind_ok.mp h
    have hm := advance_moves (H := ∅) ha
    exact hm.trans (hf s₁ (hp.moves hm) h)
  have hno : ∀ t : TaskId, t ∉ (∅ : Set TaskId) := fun t => Set.notMem_empty t
  cases op with
  | taskNew t p msg => exact taskNew_step h
  | taskDead t n =>
      obtain ⟨k, hk, hb, rfl⟩ := taskDead_ok h
      exact .dead hk hb
  | taskDeparted t msg =>
      obtain ⟨k, hk, hd⟩ := taskDeparted_ok h
      exact .departed hk hd
  | taskRunnable t msg =>
      exact .moves (by simp) <| hadv h fun _ _ h => taskRunnable_moves (hno t) h
  | taskBlocked t msg =>
      exact .moves (by simp) <| hadv h fun _ hp h =>
        taskBlocked_moves hp (hno t) h
  | taskPreempted t msg =>
      exact .moves (by simp) <| hadv h fun _ hp h =>
        taskPreempted_moves hp (hno t) h
  | taskYield t msg =>
      exact .moves (by simp) <| hadv h fun _ hp h =>
        taskYield_moves hp (hno t) h
  | taskSwitchto t msg =>
      exact .moves (by simp) <| hadv h fun _ hp h =>
        taskSwitchto_moves hp (hno t) h
  | globalSchedule env => exact .moves (by simp) (globalSchedule_moves hp h)
  | pickNextGlobalCpu env =>
      exact .moves (by simp) (pickNextGlobalCpu_moves hp h)

end GhostDataplane.Agent
