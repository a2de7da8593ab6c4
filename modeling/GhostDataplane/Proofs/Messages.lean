import GhostDataplane.Proofs.Scan

/-!
# What no message changes

The callbacks write a great deal: records, queues, the pointers of a CPU, the
count of the tasks, and what reaping a transaction leaves behind. What they do
not write is as useful to know, and there it is always the same argument, line
by line through all of them. `Unwritten` says of something read off the tables
that none of these writes shows in it, and `perform_unwritten` is the argument,
once.

One list is written by one callback only: a task that yields is laid aside until
the round is over. `UnwrittenAside` leaves that list out, so that the same
argument says how much a message can add to it.
-/

namespace GhostDataplane.Agent

open GhostDataplane.Lib Checked

/-- Something to be read off the tables that none of the callbacks' writes shows
in, except those to the list of the yielding tasks. -/
structure UnwrittenAside {γ : Type} (f : NetScheduler → γ) : Prop where
  task : ∀ s task, f { s with task := task } = f s
  cpuStates : ∀ s cpuStates, f { s with cpuStates := cpuStates } = f s
  queues : ∀ s q l, f { s with runQueue := q, runQueueLowPriority := l } = f s
  numTasks : ∀ s n, f { s with numTasks := n } = f s
  reaped : ∀ s c t st, f (s.reap c t st) = f s

/-- The same with no exception. -/
structure Unwritten {γ : Type} (f : NetScheduler → γ) :
    Prop extends UnwrittenAside f where
  yieldingTasks : ∀ s ts, f { s with yieldingTasks := ts } = f s

section Unwritten

variable {γ : Type} {f : NetScheduler → γ} {cfg : Config} {t : TaskId}
  {msg : TaskOffCpuMsg} {cpu : Int}

theorem deref_keeps : Keeps f (deref t) := by
  intro s k s' h
  obtain ⟨k', -, hr⟩ := deref_ok.mp h
  cases hr
  rfl

theorem cpuStateOf_keeps : Keeps f (cpuStateOf t) := by
  refine deref_keeps.bind fun k => ?_
  split
  · exact keeps_throw
  · exact keeps_check.bind fun _ => keeps_get.bind fun _ =>
      keeps_check.bind fun _ => keeps_pure

variable (hf : UnwrittenAside f)
include hf

theorem modifyTask_keeps {g : NetTask → NetTask} :
    Keeps f (modifyTask t g) := by
  intro s u s' h
  obtain ⟨k, -, hr⟩ := modifyTask_ok.mp h
  cases hr
  exact hf.task s _

theorem enqueue_keeps : Keeps f (enqueue t) :=
  (modifyTask_keeps hf).bind fun _ => deref_keeps.bind fun _ =>
    keeps_modify fun s => hf.queues s _ _

theorem updateTaskRuntime_keeps {r : Nat} {b : Bool} :
    Keeps f (updateTaskRuntime t r b) :=
  deref_keeps.bind fun _ => keeps_check.bind fun _ => modifyTask_keeps hf

theorem cpuEnteringSwitchto_keeps : Keeps f (cpuEnteringSwitchto cfg cpu) :=
  keeps_check.bind fun _ => keeps_check.bind fun _ => keeps_get.bind fun _ =>
    keeps_check.bind fun _ => keeps_modify fun s => hf.cpuStates s _

theorem cpuLeavingSwitchto_keeps : Keeps f (cpuLeavingSwitchto cfg cpu) :=
  keeps_check.bind fun _ => keeps_check.bind fun _ => keeps_get.bind fun _ =>
    keeps_check.bind fun _ => keeps_modify fun s => hf.cpuStates s _

theorem removeFromRunqueue_keeps {rs : RunState} :
    Keeps f (removeFromRunqueue t rs) := by
  refine deref_keeps.bind fun _ => keeps_check.bind fun _ =>
    keeps_get.bind fun s => Keeps.bind ?_ fun _ => modifyTask_keeps hf
  split
  · exact keeps_modify fun s => hf.queues s _ s.runQueueLowPriority
  · exact keeps_check.bind fun _ => keeps_modify fun s =>
      hf.queues s s.runQueue _

theorem freeTask_keeps : Keeps f (freeTask t) :=
  deref_keeps.bind fun _ => keeps_modify fun s =>
    (hf.numTasks _ _).trans (hf.task s _)

theorem Reaped.unwritten {c : CpuId} {s s' : NetScheduler} {b : Bool}
    (h : Reaped c s s' b) : f s' = f s := by
  obtain ⟨t, k, st, -, -, -, ⟨-, -, rfl⟩ | ⟨-, -, rfl⟩⟩ := h
  · exact (hf.task _ _).trans ((hf.cpuStates _ _).trans (hf.reaped s c t _))
  · exact (hf.queues _ _ _).trans ((hf.task _ _).trans (hf.reaped s c t st))

theorem syncCpuState_keeps {cpu : Option CpuId} {answer : Option TxnState} :
    Keeps f (syncCpuState cpu answer) := by
  cases cpu with
  | none => exact keeps_throw
  | some c =>
      intro s b s' h
      rcases syncCpuState_cases h with ⟨-, -, rfl⟩ | hreap
      · rfl
      · exact hreap.unwritten hf

theorem leaveCpu_keeps : Keeps f (leaveCpu t msg) := by
  refine (updateTaskRuntime_keeps hf).bind fun _ =>
    cpuStateOf_keeps.bind fun c =>
    deref_keeps.bind fun k => Keeps.bind ?_ fun _ => keeps_modify fun s =>
      hf.cpuStates s _
  split
  · exact keeps_get.bind fun _ => keeps_check.bind fun _ =>
      keeps_check.bind fun _ => (syncCpuState_keeps hf).bind
        fun _ => keeps_check
  · exact keeps_pure

theorem leaveSwitchto_keeps : Keeps f (leaveSwitchto cfg t msg) :=
  deref_keeps.bind fun _ => keeps_check.bind fun _ =>
    (updateTaskRuntime_keeps hf).bind fun _ => cpuLeavingSwitchto_keeps hf

theorem forgetSubmit_keeps : Keeps f (forgetSubmit t msg) := by
  unfold forgetSubmit
  split
  · exact keeps_pure
  · exact modifyTask_keeps hf

theorem taskNew_keeps {msg : TaskNewMsg} : Keeps f (taskNew cfg t msg) := by
  refine (updateTaskRuntime_keeps hf).bind fun _ =>
    (modifyTask_keeps hf).bind fun _ =>
    Keeps.bind ?_ fun _ => ?_
  · split
    · exact enqueue_keeps hf
    · exact keeps_pure
  · split
    · exact keeps_throw
    · exact keeps_check.bind fun _ => (modifyTask_keeps hf).bind fun _ =>
        deref_keeps.bind fun _ => keeps_check.bind fun _ =>
        (modifyTask_keeps hf).bind fun _ => keeps_modify fun s =>
          hf.numTasks s _

theorem taskDeparted_keeps : Keeps f (taskDeparted cfg t msg) := by
  refine Keeps.bind ?_ fun _ => freeTask_keeps hf
  split
  · exact cpuLeavingSwitchto_keeps hf
  · exact keeps_pure

/-- The callbacks for a task that went off its CPU, by what they do in the three
cases. -/
theorem offCpu_keeps {g : NetTask → NetTask} {placed chained : Sched Unit}
    {queued : NetTask → Sched Unit} (hplaced : Keeps f placed)
    (hchained : Keeps f chained) (hqueued : ∀ k, Keeps f (queued k)) :
    Keeps f (do
      modifyTask t g
      let k ← deref t
      (if k.runState = .onCpu || k.runState = .pending then placed
      else if msg.fromSwitchto then chained
      else queued k)
      forgetSubmit t msg) := by
  refine (modifyTask_keeps hf).bind fun _ => deref_keeps.bind fun k =>
    Keeps.bind ?_ fun _ => forgetSubmit_keeps hf
  split
  · exact hplaced
  · split
    · exact hchained
    · exact hqueued k

theorem taskSwitchto_keeps : Keeps f (taskSwitchto cfg t msg) := by
  refine (cpuEnteringSwitchto_keeps hf).bind fun _ =>
    (modifyTask_keeps hf).bind fun _ =>
    deref_keeps.bind fun k => ?_
  split
  · exact (leaveCpu_keeps hf).bind fun _ => modifyTask_keeps hf
  · exact keeps_check.bind fun _ => removeFromRunqueue_keeps hf

theorem allocate_keeps {p : Bool} : Keeps f (allocate t p) := by
  intro s u s' h
  unfold allocate at h
  split at h
  · cases h
    exact hf.task s _
  · cases h

/-- No message changes it, unless it is about a task that yields. -/
theorem perform_unwrittenAside {op : Op} (hop : op.isMessage = true)
    (hyield : ∀ t msg, op ≠ .taskYield t msg) : Keeps f (perform cfg op) := by
  have hmod :
      ∀ {t : TaskId} {g : NetTask → NetTask}, Keeps f (modifyTask t g) :=
    modifyTask_keeps hf
  cases op with
  | taskNew => exact (allocate_keeps hf).bind fun _ => taskNew_keeps hf
  | taskRunnable =>
      exact hmod.bind fun _ => deref_keeps.bind fun _ =>
        keeps_check.bind fun _ =>
        keeps_check.bind fun _ => hmod.bind fun _ => enqueue_keeps hf
  | taskDead =>
      exact hmod.bind fun _ => deref_keeps.bind fun _ =>
        keeps_check.bind fun _ =>
        freeTask_keeps hf
  | taskDeparted => exact hmod.bind fun _ => taskDeparted_keeps hf
  | taskBlocked =>
      exact hmod.bind fun _ => offCpu_keeps hf
        ((leaveCpu_keeps hf).bind fun _ => hmod) (leaveSwitchto_keeps hf)
        fun _ => keeps_check.bind fun _ => removeFromRunqueue_keeps hf
  | taskPreempted =>
      exact hmod.bind fun _ => offCpu_keeps hf
        ((leaveCpu_keeps hf).bind fun _ => enqueue_keeps hf)
        ((leaveSwitchto_keeps hf).bind fun _ => enqueue_keeps hf)
        fun _ => keeps_check
  | taskYield t msg => exact absurd rfl (hyield t msg)
  | taskSwitchto => exact hmod.bind fun _ => taskSwitchto_keeps hf
  | globalSchedule | pickNextGlobalCpu => cases hop

omit hf

theorem yieldTask_keeps (hf : Unwritten f) : Keeps f (yieldTask t) :=
  deref_keeps.bind fun _ => keeps_check.bind fun _ =>
    (modifyTask_keeps hf.toUnwrittenAside).bind fun _ =>
    keeps_modify fun s => hf.yieldingTasks s _

/-- No message changes it. -/
theorem perform_unwritten {op : Op} (hf : Unwritten f)
    (hop : op.isMessage = true) :
    Keeps f (perform cfg op) := by
  have haside := hf.toUnwrittenAside
  cases op with
  | taskYield =>
      exact (modifyTask_keeps haside).bind fun _ => offCpu_keeps haside
        ((leaveCpu_keeps haside).bind fun _ => yieldTask_keeps hf)
        ((leaveSwitchto_keeps haside).bind fun _ => yieldTask_keeps hf)
        fun _ => keeps_check
  | globalSchedule | pickNextGlobalCpu => cases hop
  | _ => exact perform_unwrittenAside haside hop fun _ _ heq => by cases heq

end Unwritten

/-! ## What a message adds to the list of the yielding tasks -/

theorem unwritten_yieldingTasks :
    UnwrittenAside NetScheduler.yieldingTasks where
  task _ _ := rfl
  cpuStates _ _ := rfl
  queues _ _ _ := rfl
  numTasks _ _ := rfl
  reaped _ _ _ _ := rfl

theorem yieldTask_yieldingTasks {t : TaskId} {s s' : NetScheduler}
    (h : yieldTask t s = .ok ((), s')) :
    s'.yieldingTasks = s.yieldingTasks ++ [t] := by
  obtain ⟨k, -, h⟩ := bind_deref.mp h
  obtain ⟨-, h⟩ := bind_check.mp h
  obtain ⟨_, s₁, hmod, h⟩ := bind_ok.mp h
  cases modify_ok.mp h
  rw [← modifyTask_keeps unwritten_yieldingTasks s _ s₁ hmod]

/-- A message adds one task at most. -/
theorem perform_yieldingTasks_le {cfg : Config} {op : Op} {s s' : NetScheduler}
    (hop : op.isMessage = true) (h : perform cfg op s = .ok ((), s')) :
    s'.yieldingTasks.length ≤ s.yieldingTasks.length + 1 := by
  have haside := unwritten_yieldingTasks
  by_cases hyield : ∃ t msg, op = .taskYield t msg
  · obtain ⟨t, msg, rfl⟩ := hyield
    obtain ⟨_, s₁, hadv, h⟩ := bind_ok.mp h
    obtain ⟨_, s₂, hboost, h⟩ := bind_ok.mp h
    obtain ⟨k, -, h⟩ := bind_deref.mp h
    obtain ⟨_, s₃, hbody, hforget⟩ := bind_ok.mp h
    have hbefore : s₂.yieldingTasks = s.yieldingTasks :=
      (modifyTask_keeps haside _ _ _ hboost).trans
        (modifyTask_keeps haside _ _ _ hadv)
    have hafter : s'.yieldingTasks = s₃.yieldingTasks :=
      forgetSubmit_keeps haside _ _ _ hforget
    rw [hafter, ← hbefore]
    -- The task is laid aside after it has left its CPU or its chain, or it is
    -- queued.
    have hlaid :
        ∀ {leave : Sched Unit}, Keeps NetScheduler.yieldingTasks leave →
        (do leave; yieldTask t) s₂ = .ok ((), s₃) →
        s₃.yieldingTasks.length ≤ s₂.yieldingTasks.length + 1 := by
      intro leave hkeeps hlaid
      obtain ⟨_, s₄, hleave, hyield⟩ := bind_ok.mp hlaid
      rw [yieldTask_yieldingTasks hyield, hkeeps _ _ _ hleave,
        List.length_append]
      exact Nat.le_refl _
    split at hbody
    · exact hlaid (leaveCpu_keeps haside) hbody
    · split at hbody
      · exact hlaid (leaveSwitchto_keeps haside) hbody
      · rw [keeps_check (f := NetScheduler.yieldingTasks) _ _ _ hbody]
        exact Nat.le_succ _
  · have hkeeps : Keeps NetScheduler.yieldingTasks (perform cfg op) :=
      perform_unwrittenAside haside hop fun t msg heq => hyield ⟨t, msg, heq⟩
    rw [hkeeps _ _ _ h]
    exact Nat.le_succ _

end GhostDataplane.Agent
