import GhostDataplane.Proofs.Placement

/-!
# What a message does to its task

A message about a task writes the record of that task and of no other, may
take the task off a CPU or end a switchto chain, and then the task is where
it was, or it enters a run queue, or it leaves one. `Reply` says so with the
records before and after, and each callback has one lemma that names the two
flags and the run state it leaves behind. The moves say where the task is;
what they do not say is what became of `prio_boost` and `preempted`, and the
order of the queues and the flags themselves depend on that.

While a callback has its task in hand, `Held` is what it has changed so far:
the record of the task, and CPUs that have lost a task or a transaction.
-/

namespace GhostDataplane.Agent

open GhostDataplane.Lib

/-- No CPU was given a task, and the global agent is where it was. -/
structure Cleared (s s' : NetScheduler) : Prop where
  current : ∀ c, (s'.cpuStates c).current = (s.cpuStates c).current ∨
    (s'.cpuStates c).current = none
  next : ∀ c, (s'.cpuStates c).next = (s.cpuStates c).next ∨
    (s'.cpuStates c).next = none
  globalCpuid : s'.globalCpuid = s.globalCpuid
  globalHomeCpu : s'.globalHomeCpu = s.globalHomeCpu

theorem Cleared.of_cpus {s s' : NetScheduler}
    (hcpu : s'.cpuStates = s.cpuStates)
    (hglobal : s'.globalCpuid = s.globalCpuid)
    (hhome : s'.globalHomeCpu = s.globalHomeCpu) : Cleared s s' :=
  ⟨fun _ => Or.inl (by rw [hcpu]), fun _ => Or.inl (by rw [hcpu]), hglobal,
    hhome⟩

theorem Cleared.refl {s : NetScheduler} : Cleared s s :=
  .of_cpus rfl rfl rfl

theorem Cleared.trans {s s₁ s' : NetScheduler} (h : Cleared s s₁)
    (h' : Cleared s₁ s') : Cleared s s' := by
  refine ⟨fun c => ?_, fun c => ?_, h'.globalCpuid.trans h.globalCpuid,
    h'.globalHomeCpu.trans h.globalHomeCpu⟩
  · rcases h'.current c with hsame | hnone
    · rw [hsame]
      exact h.current c
    · exact Or.inr hnone
  · rcases h'.next c with hsame | hnone
    · rw [hsame]
      exact h.next c
    · exact Or.inr hnone

theorem Cleared.setCpu {s : NetScheduler} {c : CpuId} {cs : CpuState}
    (hcur : cs.current = (s.cpuStates c).current ∨ cs.current = none)
    (hnext : cs.next = (s.cpuStates c).next ∨ cs.next = none) :
    Cleared s (s.setCpu c cs) := by
  refine ⟨fun d => ?_, fun d => ?_, rfl, rfl⟩
  · by_cases hd : d = c
    · subst hd
      rw [setCpu_self]
      exact hcur
    · rw [setCpu_ne hd]
      exact Or.inl rfl
  · by_cases hd : d = c
    · subst hd
      rw [setCpu_self]
      exact hnext
    · rw [setCpu_ne hd]
      exact Or.inl rfl

/-- The callback about `t` has written its record, now `k`, and no queue. -/
structure Held (t : TaskId) (k : NetTask) (s s' : NetScheduler) : Prop where
  task : s'.task = Function.update s.task t (.live k)
  runQueue : s'.runQueue = s.runQueue
  runQueueLowPriority : s'.runQueueLowPriority = s.runQueueLowPriority
  cleared : Cleared s s'

theorem Held.live {t : TaskId} {k : NetTask} {s s' : NetScheduler}
    (h : Held t k s s') : s'.task t = .live k := by
  rw [h.task, Function.update_self]

theorem Held.setTask {t : TaskId} {k : NetTask} {s : NetScheduler} :
    Held t k s (s.setTask t k) :=
  ⟨rfl, rfl, rfl, .of_cpus rfl rfl rfl⟩

theorem Held.trans {t : TaskId} {k k' : NetTask} {s s₁ s' : NetScheduler}
    (h : Held t k s s₁) (h' : Held t k' s₁ s') : Held t k' s s' where
  task := by rw [h'.task, h.task, Function.update_idem]
  runQueue := h'.runQueue.trans h.runQueue
  runQueueLowPriority := h'.runQueueLowPriority.trans h.runQueueLowPriority
  cleared := h.cleared.trans h'.cleared

/-- A change to a CPU while the task is in hand. -/
theorem Held.cpu {t : TaskId} {k : NetTask} {s s₁ s' : NetScheduler}
    (h : Held t k s s₁) (htask : s'.task = s₁.task)
    (hq : s'.runQueue = s₁.runQueue)
    (hl : s'.runQueueLowPriority = s₁.runQueueLowPriority)
    (hc : Cleared s₁ s') : Held t k s s' :=
  ⟨htask.trans h.task, hq.trans h.runQueue, hl.trans h.runQueueLowPriority,
    h.cleared.trans hc⟩

/-! ## The pieces of the callbacks -/

theorem modifyTask_held {t : TaskId} {f : NetTask → NetTask}
    {s s' : NetScheduler} {u : Unit} {k : NetTask} (hk : s.task t = .live k)
    (h : modifyTask t f s = .ok (u, s')) : Held t (f k) s s' := by
  obtain ⟨k', hk', hr⟩ := modifyTask_ok.mp h
  cases hk.symm.trans hk'
  cases hr
  exact .setTask

/-- Reaping a success and taking the task off the CPU at once. -/
theorem reapedOk_held {s : NetScheduler} {c : CpuId} {t : TaskId}
    {k : NetTask} :
    Held t { k with runState := .onCpu, prioBoost := false, cpu := some c } s
      ((reapedOk s c t k).setCurrent c none) := by
  have hother : ∀ d, d ≠ c →
      ((reapedOk s c t k).setCurrent c none).cpuStates d = s.cpuStates d :=
    fun d hd => (setCpu_ne hd).trans ((setCpu_ne hd).trans (setCpu_ne hd))
  refine ⟨rfl, rfl, rfl, fun d => ?_, fun d => ?_, rfl, rfl⟩
  · by_cases hd : d = c
    · subst hd
      exact Or.inr (congrArg CpuState.current (setCpu_self _ d _))
    · exact Or.inl (congrArg CpuState.current (hother d hd))
  · by_cases hd : d = c
    · subst hd
      refine Or.inr ?_
      simp [reapedOk, NetScheduler.setCurrent, NetScheduler.reap,
        NetScheduler.setNext, NetScheduler.setTask]
    · exact Or.inl (congrArg CpuState.next (hother d hd))

/-- A task that was placed on a CPU leaves it. Its flags stay as they are,
except that reaping a success clears `prio_boost`. -/
theorem leaveCpu_held {t : TaskId} {msg : TaskOffCpuMsg} {k : NetTask}
    {s s' : NetScheduler} {u : Unit} (hk : s.task t = .live k)
    (hboost : k.prioBoost = false) (h : leaveCpu t msg s = .ok (u, s')) :
    k.runState ≠ .queued ∧ ∃ k', Held t k' s s' ∧ k'.prioBoost = false ∧
      k'.preempted = k.preempted := by
  simp only [leaveCpu, Checked.bind_ok] at h
  obtain ⟨_, s₁, hrt, c, s₂, hof, h⟩ := h
  obtain ⟨k₀, hk₀, -, rfl⟩ := updateTaskRuntime_ok hrt
  cases hk.symm.trans hk₀
  obtain ⟨rfl, k₁, hk₁, hcpu, hrs, -⟩ := cpuStateOf_ok hof
  obtain ⟨k₂, _, hk₂, _, s₃, hif, h⟩ := h
  obtain ⟨k₃, hk₃, hr⟩ := deref_ok.mp hk₂
  cases hr
  cases hk₃.symm.trans hk₁
  have hsync := leaveCpu_synced hk₁ hcpu hif
  rw [setTask_task_self] at hk₁
  cases hk₁
  refine ⟨?_, ?_⟩
  · intro hq
    rcases hrs with hrs | hrs <;> cases hq.symm.trans hrs
  cases Checked.modify_ok.mp h
  rcases hsync with ⟨-, rfl⟩ | ⟨-, rfl⟩
  · refine ⟨_, Held.setTask.cpu rfl rfl rfl ?_, hboost, rfl⟩
    exact Cleared.setCpu (Or.inr rfl) (Or.inl rfl)
  · exact ⟨_, Held.setTask.trans reapedOk_held, rfl, rfl⟩

/-- A task at the end of a switchto chain was blocked. -/
theorem leaveSwitchto_held {cfg : Config} {t : TaskId} {msg : TaskOffCpuMsg}
    {k : NetTask} {s s' : NetScheduler} {u : Unit} (hk : s.task t = .live k)
    (h : leaveSwitchto cfg t msg s = .ok (u, s')) :
    k.runState ≠ .queued ∧ ∃ k', Held t k' s s' ∧
      k'.prioBoost = k.prioBoost ∧ k'.preempted = k.preempted ∧
      k'.runState = .blocked := by
  rw [leaveSwitchto, deref_bind hk] at h
  obtain ⟨hb, h⟩ := bind_check.mp h
  obtain ⟨_, s₁, hrt, h⟩ := Checked.bind_ok.mp h
  obtain ⟨k₀, hk₀, -, rfl⟩ := updateTaskRuntime_ok hrt
  cases hk.symm.trans hk₀
  simp only [cpuLeavingSwitchto, bind_check, Checked.bind_get,
    Checked.modify_ok] at h
  obtain ⟨-, -, -, hr⟩ := h
  cases hr
  have hblocked := of_decide_eq_true hb
  refine ⟨by rw [hblocked]; simp, _, Held.setTask.cpu rfl rfl rfl ?_, rfl, rfl,
    hblocked⟩
  exact Cleared.setCpu (Or.inl rfl) (Or.inl rfl)

theorem forgetSubmit_held {t : TaskId} {msg : TaskOffCpuMsg} {k : NetTask}
    {s s' : NetScheduler} {u : Unit} (hk : s.task t = .live k)
    (h : forgetSubmit t msg s = .ok (u, s')) :
    ∃ submit, Held t { k with startSubmit := submit } s s' := by
  unfold forgetSubmit at h
  split at h
  · cases Checked.pure_ok.mp h
    refine ⟨k.startSubmit, ?_, rfl, rfl, .refl⟩
    rw [← hk, Function.update_eq_self]
  · exact ⟨none, modifyTask_held hk h⟩

/-! ## Replies -/

/-- What became of the queues when the record of `t` went from `k` to `k'`. -/
inductive QueueChange (t : TaskId) (k k' : NetTask) (s s' : NetScheduler) :
    Prop where
  | same (hst : k'.runState = .queued ↔ k.runState = .queued)
      (hq : s'.runQueue = s.runQueue)
      (hl : s'.runQueueLowPriority = s.runQueueLowPriority)
  | pushed (hk : k.runState ≠ .queued) (hst : k'.runState = .queued)
      (hq : s'.runQueue = (s.push t k').runQueue)
      (hl : s'.runQueueLowPriority = (s.push t k').runQueueLowPriority)
  | erased (hk : k.runState = .queued) (hst : k'.runState ≠ .queued)
      (hq : s'.runQueue = (s.unqueue t).runQueue)
      (hl : s'.runQueueLowPriority = (s.unqueue t).runQueueLowPriority)

/-- A message about `t` changed its record from `k` to `k'`. -/
structure Reply (t : TaskId) (k k' : NetTask) (s s' : NetScheduler) :
    Prop where
  live : s.task t = .live k
  task : s'.task = Function.update s.task t (.live k')
  queue : QueueChange t k k' s s'
  cleared : Cleared s s'

theorem Reply.task_self {t : TaskId} {k k' : NetTask} {s s' : NetScheduler}
    (h : Reply t k k' s s') : s'.task t = .live k' := by
  rw [h.task, Function.update_self]

theorem Reply.task_other {t u : TaskId} {k k' : NetTask}
    {s s' : NetScheduler} (h : Reply t k k' s s') (hu : u ≠ t) :
    s'.task u = s.task u := by
  rw [h.task, Function.update_of_ne hu]

theorem Held.reply {t : TaskId} {k k' : NetTask} {s s' : NetScheduler}
    (h : Held t k' s s') (hk : s.task t = .live k)
    (hst : k'.runState = .queued ↔ k.runState = .queued) : Reply t k k' s s' :=
  ⟨hk, h.task, .same hst h.runQueue h.runQueueLowPriority, h.cleared⟩

/-- The task is put into a run queue. -/
theorem Held.reply_enqueue {t : TaskId} {k k₁ : NetTask}
    {s s₁ s' : NetScheduler} {u : Unit} (h : Held t k₁ s s₁)
    (hk : s.task t = .live k) (hst : k.runState ≠ .queued)
    (henq : enqueue t s₁ = .ok (u, s')) :
    Reply t k { k₁ with runState := .queued } s s' := by
  rw [enqueue_eq h.live] at henq
  cases henq
  have hcl : Cleared s₁ ((s₁.setTask t { k₁ with runState := .queued }).push t
      k₁) := .of_cpus rfl rfl rfl
  refine ⟨hk, ?_, .pushed hst rfl ?_ ?_, h.cleared.trans hcl⟩
  · simp only [NetScheduler.push, NetScheduler.setTask]
    rw [h.task, Function.update_idem]
  · simp only [NetScheduler.push, NetScheduler.setTask, h.runQueue]
    rfl
  · simp only [NetScheduler.push, NetScheduler.setTask, h.runQueueLowPriority]
    rfl

/-- The task goes to the yielding ones. -/
theorem yieldTask_held {t : TaskId} {k : NetTask} {s s' : NetScheduler}
    {u : Unit} (hk : s.task t = .live k) (h : yieldTask t s = .ok (u, s')) :
    Held t { k with runState := .yielding } s s' := by
  cases yieldTask_eq hk h
  exact ⟨rfl, rfl, rfl, .of_cpus rfl rfl rfl⟩

/-- The task is taken out of a run queue. -/
theorem Held.reply_remove {t : TaskId} {k k₁ : NetTask}
    {s s₁ s' : NetScheduler} {u : Unit} (h : Held t k₁ s s₁)
    (hk : s.task t = .live k) (hst : k₁.runState = k.runState)
    (hrem : removeFromRunqueue t .blocked s₁ = .ok (u, s')) :
    Reply t k { k₁ with runState := .blocked } s s' := by
  obtain ⟨k₂, hk₂, hq, -, rfl⟩ := removeFromRunqueue_ok hrem
  cases h.live.symm.trans hk₂
  have hun : (s₁.unqueue t).task = s₁.task ∧ Cleared s₁ (s₁.unqueue t) ∧
      (s₁.unqueue t).runQueue = (s.unqueue t).runQueue ∧
      (s₁.unqueue t).runQueueLowPriority =
        (s.unqueue t).runQueueLowPriority := by
    unfold NetScheduler.unqueue
    rw [h.runQueue, h.runQueueLowPriority]
    split
    · exact ⟨rfl, .of_cpus rfl rfl rfl, rfl, rfl⟩
    · exact ⟨rfl, .of_cpus rfl rfl rfl, rfl, rfl⟩
  obtain ⟨htask, hcl, hrq, hlq⟩ := hun
  have hset : Held t { k₁ with runState := .blocked } (s₁.unqueue t)
      ((s₁.unqueue t).setTask t { k₁ with runState := .blocked }) := .setTask
  refine ⟨hk, ?_, .erased (hst ▸ hq) (by simp) hrq hlq,
    h.cleared.trans (hcl.trans hset.cleared)⟩
  rw [hset.task, htask, h.task, Function.update_idem]

/-- Forgetting the submission time is of no consequence. -/
theorem Reply.forget {t : TaskId} {msg : TaskOffCpuMsg} {k k' : NetTask}
    {s s₁ s' : NetScheduler} {u : Unit} (h : Reply t k k' s s₁)
    (hforget : forgetSubmit t msg s₁ = .ok (u, s')) :
    ∃ submit, Reply t k { k' with startSubmit := submit } s s' := by
  obtain ⟨submit, hheld⟩ := forgetSubmit_held h.task_self hforget
  refine ⟨submit, h.live, ?_, ?_, h.cleared.trans hheld.cleared⟩
  · rw [hheld.task, h.task, Function.update_idem]
  · cases h.queue with
    | same hst hq hl =>
        exact .same hst (hheld.runQueue.trans hq)
          (hheld.runQueueLowPriority.trans hl)
    | pushed hk hst hq hl =>
        exact .pushed hk hst (hheld.runQueue.trans hq)
          (hheld.runQueueLowPriority.trans hl)
    | erased hk hst hq hl =>
        exact .erased hk hst (hheld.runQueue.trans hq)
          (hheld.runQueueLowPriority.trans hl)

/-! ## The callbacks -/

theorem advance_held {t : TaskId} {n : Nat} {s s' : NetScheduler} {u : Unit}
    (h : advance t n s = .ok (u, s')) :
    ∃ k, s.task t = .live k ∧ Held t { k with seqnum := n } s s' := by
  obtain ⟨k, hk, rfl⟩ := advance_ok h
  exact ⟨k, hk, .setTask⟩

/-- The three callbacks that forget the submission time: the sequence number,
a write to the flags, and a body that the reply is about. What is said of the
record afterwards must not depend on the time. -/
theorem offCpu_reply {P : NetTask → NetTask → Prop}
    (hP : ∀ k k' submit, P k k' → P k { k' with startSubmit := submit })
    {t : TaskId} {n : Nat} {f : NetTask → NetTask} {msg : TaskOffCpuMsg}
    {body : NetTask → Sched Unit} {s s' : NetScheduler}
    (h : (do
      advance t n
      modifyTask t f
      let k ← deref t
      body k
      forgetSubmit t msg : Sched Unit) s = .ok ((), s'))
    (hbody : ∀ k s₁ s₂, s.task t = .live k →
      Held t (f { k with seqnum := n }) s s₁ →
      body (f { k with seqnum := n }) s₁ = .ok ((), s₂) →
      ∃ k', Reply t k k' s s₂ ∧ P k k') :
    ∃ k k', Reply t k k' s s' ∧ P k k' := by
  obtain ⟨_, s₁, hadv, h⟩ := Checked.bind_ok.mp h
  obtain ⟨k, hk, hheld⟩ := advance_held hadv
  obtain ⟨_, s₂, hmod, h⟩ := Checked.bind_ok.mp h
  have hheld₂ := hheld.trans (modifyTask_held hheld.live hmod)
  rw [deref_bind hheld₂.live] at h
  obtain ⟨_, s₃, hb, hforget⟩ := Checked.bind_ok.mp h
  obtain ⟨k', hreply, hk'⟩ := hbody k s₂ s₃ hk hheld₂ hb
  obtain ⟨submit, hreply⟩ := hreply.forget hforget
  exact ⟨k, _, hreply, hP k k' submit hk'⟩

theorem taskRunnable_reply {cfg : Config} {t : TaskId} {msg : TaskWakeupMsg}
    {s s' : NetScheduler}
    (h : perform cfg (.taskRunnable t msg) s = .ok ((), s')) :
    ∃ k k', Reply t k k' s s' ∧ k.runState = .blocked ∧
      k'.preempted = k.preempted := by
  obtain ⟨_, s₁, hadv, h⟩ := Checked.bind_ok.mp h
  obtain ⟨k, hk, hheld⟩ := advance_held hadv
  rw [taskRunnable, deref_bind hheld.live] at h
  obtain ⟨hb, h⟩ := bind_check.mp h
  obtain ⟨-, h⟩ := bind_check.mp h
  obtain ⟨_, s₂, hmod, h⟩ := Checked.bind_ok.mp h
  have hheld₂ := hheld.trans (modifyTask_held hheld.live hmod)
  have hblocked : k.runState = .blocked := of_decide_eq_true hb
  exact ⟨k, _, hheld₂.reply_enqueue hk (by simp [hblocked]) h, hblocked, rfl⟩

theorem taskBlocked_reply {cfg : Config} {t : TaskId} {msg : TaskOffCpuMsg}
    {s s' : NetScheduler}
    (h : perform cfg (.taskBlocked t msg) s = .ok ((), s')) :
    ∃ k k', Reply t k k' s s' ∧ k'.runState = .blocked ∧
      k'.prioBoost = false ∧ k'.preempted = k.preempted := by
  refine offCpu_reply (fun _ _ _ hP => hP) h fun k s₁ s₂ hk hheld hbody => ?_
  split at hbody
  · obtain ⟨_, s₃, hleave, hbody⟩ := Checked.bind_ok.mp hbody
    obtain ⟨hrs, k₁, hheld₁, hboost, hpre⟩ :=
      leaveCpu_held hheld.live rfl hleave
    have hend := (hheld.trans hheld₁).trans (modifyTask_held hheld₁.live hbody)
    exact ⟨_, hend.reply hk (iff_of_false (by simp) hrs), rfl, hboost, hpre⟩
  · split at hbody
    · obtain ⟨hrs, k₁, hheld₁, hboost, hpre, hst⟩ :=
        leaveSwitchto_held hheld.live hbody
      exact ⟨k₁, (hheld.trans hheld₁).reply hk
        (iff_of_false (by simp [hst]) hrs), hst, hboost, hpre⟩
    · obtain ⟨-, hbody⟩ := bind_check.mp hbody
      exact ⟨_, hheld.reply_remove hk rfl hbody, rfl, rfl, rfl⟩

theorem taskPreempted_reply {cfg : Config} {t : TaskId} {msg : TaskOffCpuMsg}
    {s s' : NetScheduler}
    (h : perform cfg (.taskPreempted t msg) s = .ok ((), s')) :
    ∃ k k', Reply t k k' s s' ∧ k'.runState = .queued ∧
      k'.prioBoost = false ∧ k'.preempted = true := by
  refine offCpu_reply (fun _ _ _ hP => hP) h fun k s₁ s₂ hk hheld hbody => ?_
  split at hbody
  · obtain ⟨_, s₃, hleave, hbody⟩ := Checked.bind_ok.mp hbody
    obtain ⟨hrs, k₁, hheld₁, hboost, hpre⟩ :=
      leaveCpu_held hheld.live rfl hleave
    exact ⟨_, (hheld.trans hheld₁).reply_enqueue hk hrs hbody,
      rfl, hboost, hpre⟩
  · split at hbody
    · obtain ⟨_, s₃, hleave, hbody⟩ := Checked.bind_ok.mp hbody
      obtain ⟨hrs, k₁, hheld₁, hboost, hpre, -⟩ :=
        leaveSwitchto_held hheld.live hleave
      exact ⟨_, (hheld.trans hheld₁).reply_enqueue hk hrs hbody, rfl, hboost,
        hpre⟩
    · obtain ⟨hq, hr⟩ := check_ok.mp hbody
      cases hr
      exact ⟨_, hheld.reply hk Iff.rfl, of_decide_eq_true hq, rfl, rfl⟩

theorem taskYield_reply {cfg : Config} {t : TaskId} {msg : TaskOffCpuMsg}
    {s s' : NetScheduler}
    (h : perform cfg (.taskYield t msg) s = .ok ((), s')) :
    ∃ k k', Reply t k k' s s' ∧
      (k'.runState = .queued ↔ k.runState = .queued) ∧
      k'.prioBoost = false ∧ k'.preempted = k.preempted := by
  refine offCpu_reply (fun _ _ _ hP => hP) h fun k s₁ s₂ hk hheld hbody => ?_
  split at hbody
  · obtain ⟨_, s₃, hleave, hbody⟩ := Checked.bind_ok.mp hbody
    obtain ⟨hrs, k₁, hheld₁, hboost, hpre⟩ :=
      leaveCpu_held hheld.live rfl hleave
    have hend := (hheld.trans hheld₁).trans (yieldTask_held hheld₁.live hbody)
    have hst : RunState.yielding = .queued ↔ k.runState = .queued :=
      iff_of_false (by simp) hrs
    exact ⟨_, hend.reply hk hst, hst, hboost, hpre⟩
  · split at hbody
    · obtain ⟨_, s₃, hleave, hbody⟩ := Checked.bind_ok.mp hbody
      obtain ⟨hrs, k₁, hheld₁, hboost, hpre, -⟩ :=
        leaveSwitchto_held hheld.live hleave
      have hend := (hheld.trans hheld₁).trans (yieldTask_held hheld₁.live hbody)
      have hst : RunState.yielding = .queued ↔ k.runState = .queued :=
        iff_of_false (by simp) hrs
      exact ⟨_, hend.reply hk hst, hst, hboost, hpre⟩
    · obtain ⟨-, hr⟩ := check_ok.mp hbody
      cases hr
      exact ⟨_, hheld.reply hk Iff.rfl, Iff.rfl, rfl, rfl⟩

theorem cpuEnteringSwitchto_held {cfg : Config} {cpu : Int} {t : TaskId}
    {k : NetTask} {s s₁ s' : NetScheduler} {u : Unit} (h : Held t k s s₁)
    (henter : cpuEnteringSwitchto cfg cpu s₁ = .ok (u, s')) :
    Held t k s s' := by
  simp only [cpuEnteringSwitchto, bind_check, Checked.bind_get,
    Checked.modify_ok] at henter
  obtain ⟨-, -, -, hr⟩ := henter
  cases hr
  exact h.cpu rfl rfl rfl (Cleared.setCpu (Or.inl rfl) (Or.inl rfl))

theorem taskSwitchto_reply {cfg : Config} {t : TaskId} {msg : TaskOffCpuMsg}
    {s s' : NetScheduler}
    (h : perform cfg (.taskSwitchto t msg) s = .ok ((), s')) :
    ∃ k k', Reply t k k' s s' ∧ k'.runState = .blocked ∧
      k'.prioBoost = false ∧ k'.preempted = k.preempted := by
  obtain ⟨_, s₁, hadv, h⟩ := Checked.bind_ok.mp h
  obtain ⟨k, hk, hheld⟩ := advance_held hadv
  obtain ⟨_, s₂, henter, h⟩ := Checked.bind_ok.mp h
  have hheld₂ := cpuEnteringSwitchto_held hheld henter
  obtain ⟨_, s₃, hmod, h⟩ := Checked.bind_ok.mp h
  have hheld₃ := hheld₂.trans (modifyTask_held hheld₂.live hmod)
  rw [deref_bind hheld₃.live] at h
  split at h
  · obtain ⟨_, s₄, hleave, h⟩ := Checked.bind_ok.mp h
    obtain ⟨hrs, k₁, hheld₁, hboost, hpre⟩ :=
      leaveCpu_held hheld₃.live rfl hleave
    have hend := (hheld₃.trans hheld₁).trans (modifyTask_held hheld₁.live h)
    exact ⟨k, _, hend.reply hk (iff_of_false (by simp) hrs), rfl, hboost, hpre⟩
  · obtain ⟨-, h⟩ := bind_check.mp h
    exact ⟨k, _, hheld₃.reply_remove hk rfl h, rfl, rfl, rfl⟩

/-- No message gives a CPU a task. -/
theorem perform_cleared {cfg : Config} {op : Op} {s s' : NetScheduler}
    (hmsg : op.isMessage = true) (h : perform cfg op s = .ok ((), s')) :
    Cleared s s' := by
  cases op with
  | globalSchedule | pickNextGlobalCpu => cases hmsg
  | taskNew t p msg =>
      cases taskNew_step h with
      | moves hop _ => exact absurd rfl (hop t p msg)
      | new | newRunnable => exact .of_cpus rfl rfl rfl
  | taskDead t n =>
      obtain ⟨k, -, -, rfl⟩ := taskDead_ok h
      exact .of_cpus rfl rfl rfl
  | taskDeparted t msg =>
      obtain ⟨k, -, hd⟩ := taskDeparted_ok h
      rcases hd with rfl | ⟨c, rfl⟩
      · exact .of_cpus rfl rfl rfl
      · have hsw : Cleared s (s.setInSwitchto c false) :=
          Cleared.setCpu (Or.inl rfl) (Or.inl rfl)
        exact ⟨hsw.current, hsw.next, rfl, rfl⟩
  | taskRunnable t msg =>
      obtain ⟨k, k', hr, -⟩ := taskRunnable_reply h
      exact hr.cleared
  | taskBlocked t msg =>
      obtain ⟨k, k', hr, -⟩ := taskBlocked_reply h
      exact hr.cleared
  | taskPreempted t msg =>
      obtain ⟨k, k', hr, -⟩ := taskPreempted_reply h
      exact hr.cleared
  | taskYield t msg =>
      obtain ⟨k, k', hr, -⟩ := taskYield_reply h
      exact hr.cleared
  | taskSwitchto t msg =>
      obtain ⟨k, k', hr, -⟩ := taskSwitchto_reply h
      exact hr.cleared

end GhostDataplane.Agent
