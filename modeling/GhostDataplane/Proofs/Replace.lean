import GhostDataplane.Proofs.Callbacks

/-!
# Evicting a task

`PreemptTask` and `ReplaceExistingTask`, with the exact tables they leave.
Both are read as equivalences under what the callers know of the two tasks:
the run succeeds with these tables, and with no others, and the only check
that is left to fail is that a runtime does not decrease. A replacement that
the kernel refused still takes the old task off its CPU and puts it back into
a queue, while the new one yields.
-/

namespace GhostDataplane.Agent

open GhostDataplane.Lib

/-- The record of an evicted task, before it is queued. `runtime` and
`elapsedRuntime` are what the eviction made of them. -/
def NetTask.evicted (k : NetTask) : NetTask :=
  { k with preempted := false, prioBoost := true }

/-- The record of a task whose runtime was read off its status word. -/
def NetTask.ranUntil (k : NetTask) (runtime : Nat) : NetTask :=
  { k with
    elapsedRuntime := k.elapsedRuntime + (runtime - k.runtime)
    runtime := runtime }

/-- The tables once `p`, with the record `l`, was kicked off `c` by a
transaction for `n` and put back into a queue, and `c` is empty. -/
def NetScheduler.evict (s : NetScheduler) (c : CpuId) (p : TaskId)
    (l : NetTask) (n : TaskId) (kn : NetTask) (st : TxnState) : NetScheduler :=
  (((s.openSync c n kn st).setCurrent c none).setTask p
    { l with runState := .queued }).push p l

/-- The tables after `n` took the place of `p` on `c`. -/
def replacedOk (s : NetScheduler) (c : CpuId) (p : TaskId) (k : NetTask)
    (n : TaskId) (kn : NetTask) (now : Int) : NetScheduler :=
  { ((s.evict c p k.evicted n kn .complete).setCpu c
      { s.cpuStates c with current := some n, next := none }).setTask n
      { kn with
        runState := .onCpu
        cpu := some c
        prioBoost := false
        preempted := false
        startSubmit := some now } with
    txnTotal := s.txnTotal + 1 }

/-- The tables after `n` failed to: both tasks are off the CPU. -/
def replacedFail (s : NetScheduler) (c : CpuId) (p : TaskId) (k : NetTask)
    (n : TaskId) (kn : NetTask) (st : TxnState) (now : Int) : NetScheduler :=
  { (s.evict c p k.evicted n kn st).setTask n
      { kn with runState := .yielding, startSubmit := some now } with
    yieldingTasks := s.yieldingTasks ++ [n]
    txnTotal := s.txnTotal + 1 }

theorem openRequest_bind {α : Type} {c : CpuId} {n : TaskId} {batched : Bool}
    {cs : CpuState} {f : Unit → Sched α} {s : NetScheduler} {kn : NetTask}
    (hn : s.task n = .live kn) :
    (openRequest c n batched cs >>= f) s =
      f () ((s.note (.opened ⟨c, n, batched, cs, s.req c, kn⟩)).setReq c
        .inFlight) := by
  refine Checked.bind_eq ?_
  rw [openRequest, deref_bind hn]
  rfl

theorem setReq_setReq {s : NetScheduler} {c : CpuId} {r r' : RunRequest} :
    (s.setReq c r).setReq c r' = s.setReq c r' := by
  simp only [NetScheduler.setReq, Function.update_idem]

theorem ranUntil_ok {t : TaskId} {r : Nat} {s s' : NetScheduler} {u : Unit}
    {k : NetTask} (hk : s.task t = .live k) :
    updateTaskRuntime t r true s = .ok (u, s') ↔
      k.runtime ≤ r ∧ s' = s.setTask t (k.ranUntil r) := by
  rw [updateTaskRuntime, deref_bind hk]
  simp only [bind_check, modifyTask_ok, hk, Slot.live.injEq, exists_eq_left',
    decide_eq_true_eq]
  constructor
  · rintro ⟨hle, hr⟩
    cases hr
    exact ⟨hle, rfl⟩
  · rintro ⟨hle, rfl⟩
    exact ⟨hle, rfl⟩

section Replace

variable {s s' : NetScheduler} {c : CpuId} {p n : TaskId} {k kn : NetTask}
  {st : TxnState} {swRuntime : TaskId → Nat} {now : Int}

theorem preemptTask_ok {b : Bool} (hk : s.task p = .live k)
    (hon : k.runState = .onCpu) (hcpu : k.cpu = some c)
    (hn : s.task n = .live kn) (hq : kn.runState = .queued) :
    preemptTask (some p) (some n) st swRuntime s = .ok (b, s') ↔
      (st = .complete ∧ k.runtime ≤ swRuntime p ∧ b = true ∧
        s' = (((s.openSync c n kn st).setCurrent c (some n)).setTask n
          { kn with runState := .onCpu, cpu := some c }).setTask p
          (k.ranUntil (swRuntime p))) ∨
      (st ≠ .complete ∧ b = false ∧ s' = s.openSync c n kn st) := by
  have hne : n ≠ p := by
    rintro rfl
    rw [hn] at hk
    cases hk
    rw [hq] at hon
    cases hon
  unfold preemptTask
  simp only []
  rw [deref_bind hk, check_bind (by simp [hon]), check_bind (by simp [hon]),
    if_neg (by simpa using hne)]
  simp only [hcpu]
  rw [deref_bind hn, check_bind (by simp [hq]), Checked.get_bind]
  rw [openRequest_bind hn, Checked.modify_bind, setReq_setReq]
  by_cases hst : st = .complete
  · subst hst
    rw [if_pos rfl, Checked.modify_bind, modifyTask_bind (by exact hn)]
    rw [Checked.bind_ok]
    constructor
    · rintro ⟨_, s₁, hrt, hr⟩
      cases Checked.pure_ok.mp hr
      obtain ⟨hle, rfl⟩ :=
        (ranUntil_ok (by rw [setTask_task_ne (Ne.symm hne)]; exact hk)).mp hrt
      exact Or.inl ⟨rfl, hle, rfl, rfl⟩
    · rintro (⟨-, hle, rfl, rfl⟩ | ⟨hf, -⟩)
      · refine ⟨(), _, (ranUntil_ok ?_).mpr ⟨hle, rfl⟩, rfl⟩
        rw [setTask_task_ne (Ne.symm hne)]
        exact hk
      · exact absurd rfl hf
  · rw [if_neg hst, Checked.pure_ok]
    constructor
    · intro hr
      cases hr
      exact Or.inr ⟨hst, rfl, rfl⟩
    · rintro (⟨hf, -⟩ | ⟨-, rfl, rfl⟩)
      · exact absurd hf hst
      · rfl

/-- The second half of `ReplaceExistingTask`, after the preemption. -/
def settleReplaced (c : CpuId) (p n : TaskId) (now : Int) (inSync : Bool) :
    Sched Unit := do
  modifyTask p NetTask.evicted
  enqueue p
  (if inSync then do
    modifyTask n fun k => { k with prioBoost := false, preempted := false }
    Checked.modify fun s => s.setNext c none
  else do
    Checked.modify fun s => s.setCurrent c none
    yieldTask n)
  modifyTask n fun k => { k with startSubmit := some now }
  Checked.modify fun s => { s with txnTotal := s.txnTotal + 1 }

theorem settleReplaced_inSync (hk : s.task p = .live k)
    (hn : s.task n = .live kn) (hne : n ≠ p) :
    settleReplaced c p n now true s = .ok ((),
      { ((((s.setNext c none).setTask p
          { k.evicted with runState := .queued }).push p k.evicted).setTask n
          { kn with
            prioBoost := false, preempted := false, startSubmit := some now })
        with txnTotal := s.txnTotal + 1 }) := by
  rw [settleReplaced, modifyTask_bind hk,
    Checked.bind_eq (enqueue_eq (setTask_task_self _ _ _)), setTask_setTask,
    if_pos rfl]
  have hn₁ : ((s.setTask p { k.evicted with runState := .queued }).push p
      k.evicted).task n = .live kn := (setTask_task_ne hne).trans hn
  rw [Checked.bind_eq (modifyTask_bind hn₁),
    modifyTask_bind (by exact setTask_task_self _ n _)]
  simp only [Checked.modify, NetScheduler.setTask, NetScheduler.setNext,
    NetScheduler.setCpu, Function.update_idem]
  rfl

theorem settleReplaced_failed (hk : s.task p = .live k)
    (hn : s.task n = .live kn) (hne : n ≠ p) (hq : kn.runState = .queued) :
    settleReplaced c p n now false s = .ok ((),
      { ((((s.setCurrent c none).setTask p
          { k.evicted with runState := .queued }).push p k.evicted).setTask n
          { kn with runState := .yielding, startSubmit := some now }) with
        yieldingTasks := s.yieldingTasks ++ [n]
        txnTotal := s.txnTotal + 1 }) := by
  rw [settleReplaced, modifyTask_bind hk,
    Checked.bind_eq (enqueue_eq (setTask_task_self _ _ _)), setTask_setTask,
    if_neg (by simp)]
  have hn₁ : (((s.setTask p { k.evicted with runState := .queued }).push p
      k.evicted).setCurrent c none).task n = .live kn :=
    (setTask_task_ne hne).trans hn
  have hy := (yieldTask_ok (u := ())).mpr ⟨kn, hn₁, Or.inr (Or.inl hq), rfl⟩
  rw [Checked.bind_eq (Checked.modify_bind.trans hy),
    modifyTask_bind (by exact setTask_task_self _ n _)]
  simp only [Checked.modify, NetScheduler.setTask, Function.update_idem]
  rfl

/-- All that `ReplaceExistingTask` can do to a CPU that runs `p`. -/
theorem replaceExistingTask_ok (hcur : (s.cpuStates c).current = some p)
    (hk : s.task p = .live k) (hon : k.runState = .onCpu)
    (hcpu : k.cpu = some c) (hn : s.task n = .live kn)
    (hq : kn.runState = .queued) :
    replaceExistingTask c n st swRuntime now s = .ok ((), s') ↔
      (st = .complete ∧ k.runtime ≤ swRuntime p ∧
        s' = replacedOk s c p (k.ranUntil (swRuntime p)) n kn now) ∨
      (st ≠ .complete ∧ s' = replacedFail s c p k n kn st now) := by
  have hne : n ≠ p := by
    rintro rfl
    rw [hn] at hk
    cases hk
    rw [hq] at hon
    cases hon
  have hhalves : replaceExistingTask c n st swRuntime now s =
      (preemptTask (some p) (some n) st swRuntime >>=
        settleReplaced c p n now) s := by
    rw [replaceExistingTask, Checked.get_bind]
    simp only [hcur]
    rfl
  -- After a commit the two records have each been written twice.
  have hok : settleReplaced c p n now true
      ((((s.openSync c n kn .complete).setCurrent c (some n)).setTask n
        { kn with runState := .onCpu, cpu := some c }).setTask p
        (k.ranUntil (swRuntime p))) =
      .ok ((), replacedOk s c p (k.ranUntil (swRuntime p)) n kn now) := by
    rw [settleReplaced_inSync (setTask_task_self _ _ _)
      ((setTask_task_ne hne).trans (setTask_task_self _ n _)) hne]
    simp only [replacedOk, NetScheduler.evict, NetScheduler.setTask,
      NetScheduler.setCurrent, NetScheduler.setNext, NetScheduler.setCpu,
      NetScheduler.push, Function.update_idem, Function.update_self,
      Function.update_comm hne]
    rfl
  have hfail : settleReplaced c p n now false (s.openSync c n kn st) =
      .ok ((), replacedFail s c p k n kn st now) :=
    settleReplaced_failed hk hn hne hq
  rw [hhalves, Checked.bind_ok]
  simp only [preemptTask_ok hk hon hcpu hn hq]
  constructor
  · rintro ⟨b, s₁, ⟨rfl, hle, rfl, rfl⟩ | ⟨hst, rfl, rfl⟩, h⟩
    · rw [hok] at h
      cases h
      exact Or.inl ⟨rfl, hle, rfl⟩
    · rw [hfail] at h
      cases h
      exact Or.inr ⟨hst, rfl⟩
  · rintro (⟨rfl, hle, rfl⟩ | ⟨hst, rfl⟩)
    · exact ⟨true, _, Or.inl ⟨rfl, hle, rfl, rfl⟩, hok⟩
    · exact ⟨false, _, Or.inr ⟨hst, rfl, rfl⟩, hfail⟩

theorem replaceExistingTask_prev
    (h : replaceExistingTask c n st swRuntime now s = .ok ((), s')) :
    ∃ p k, (s.cpuStates c).current = some p ∧ s.task p = .live k := by
  simp only [replaceExistingTask, Checked.bind_get] at h
  obtain ⟨b, s₁, hpre, -⟩ := Checked.bind_ok.mp h
  cases hcur : (s.cpuStates c).current with
  | none =>
      simp only [hcur, preemptTask] at hpre
      exact (Checked.throw_ok.mp hpre).elim
  | some p =>
      rw [hcur] at hpre
      obtain ⟨k, hk, -⟩ := bind_deref.mp hpre
      exact ⟨p, k, rfl, hk⟩

/-- `n` took the place of `p` on `c`, or tried to. -/
structure Replaced (s : NetScheduler) (c : CpuId) (n : TaskId) (kn : NetTask)
    (st : TxnState) (swRuntime : TaskId → Nat) (now : Int) (p : TaskId)
    (k : NetTask) (s' : NetScheduler) : Prop where
  current : (s.cpuStates c).current = some p
  live : s.task p = .live k
  onCpu : k.runState = .onCpu
  cpu : k.cpu = some c
  result :
    (st = .complete ∧
      s' = replacedOk s c p (k.ranUntil (swRuntime p)) n kn now) ∨
    (st ≠ .complete ∧ s' = replacedFail s c p k n kn st now)

/-- The same, when every task is in its place. -/
theorem replaceExistingTask_cases {H : Set TaskId} (hp : Placed s H)
    (hn : s.task n = .live kn) (hq : kn.runState = .queued)
    (h : replaceExistingTask c n st swRuntime now s = .ok ((), s')) :
    ∃ p k, Replaced s c n kn st swRuntime now p k s' := by
  obtain ⟨p, k, hcur, hk⟩ := replaceExistingTask_prev h
  obtain ⟨-, hon, hcpu⟩ := hp.at_current hk hcur
  refine ⟨p, k, hcur, hk, hon, hcpu, ?_⟩
  rcases (replaceExistingTask_ok hcur hk hon hcpu hn hq).mp h with
    ⟨hst, -, hs⟩ | hfail
  · exact Or.inl ⟨hst, hs⟩
  · exact Or.inr hfail

theorem evict_moves {H : Set TaskId} {l : NetTask} (hp : Placed s H)
    (hcur : (s.cpuStates c).current = some p) (hk : s.task p = .live k)
    (hl : l.fixed = k.fixed) :
    Moves s H (s.evict c p l n kn st) H := by
  obtain ⟨hpH, -, -⟩ := hp.at_current hk hcur
  have hnext : (s.cpuStates c).next = none :=
    (hp.exclusive c).resolve_left (by simp [hcur])
  have hmem : p ∈ insert p H := Set.mem_insert p H
  let s₁ := (s.openSync c n kn st).setCurrent c none
  have htouch : Move s₁ (insert p H) (s₁.setTask p l) (insert p H) :=
    .touch (by exact hk) (Or.inl hmem) hl
  have henq := Move.enqueue (setTask_task_self s₁ p l) hmem
  rw [setTask_setTask, insert_diff hpH] at henq
  exact .head (.openSync hnext) (.head (.vacate (by exact hk) (by exact hcur))
    (.head htouch henq.moves))

theorem Replaced.moves {H : Set TaskId}
    (h : Replaced s c n kn st swRuntime now p k s') (hp : Placed s H)
    (hnH : n ∈ H) (hn : s.task n = .live kn) : Moves s H s' (H \ {n}) := by
  obtain ⟨hcur, hk, -, -, hcase⟩ := h
  have hne : n ≠ p := fun hnp => (hp.at_current hk hcur).1 (hnp ▸ hnH)
  have hnext : (s.cpuStates c).next = none :=
    (hp.exclusive c).resolve_left (by simp [hcur])
  rcases hcase with ⟨rfl, rfl⟩ | ⟨-, rfl⟩
  · let l := (k.ranUntil (swRuntime p)).evicted
    let s₁ := s.evict c p l n kn .complete
    have hn₁ : s₁.task n = .live kn := (setTask_task_ne hne).trans hn
    have hcs : s₁.cpuStates c = { s.cpuStates c with current := none } :=
      setCpu_self _ c _
    let k' : NetTask :=
      { kn with
        runState := .onCpu, cpu := some c, prioBoost := false
        preempted := false, startSubmit := some now }
    have hrun : Move s₁ H ((s₁.setCurrent c (some n)).setTask n k') (H \ {n}) :=
      .run hn₁ hnH (by rw [hcs]) (by rw [hcs]; exact hnext) rfl rfl rfl
    have hset : s₁.setCurrent c (some n) = s₁.setCpu c
        { s.cpuStates c with current := some n, next := none } := by
      rw [NetScheduler.setCurrent, hcs]
      simp only [hnext]
    rw [hset] at hrun
    have hevict : Moves s H s₁ H := evict_moves hp hcur hk rfl
    exact hevict.trans (.head hrun Move.countTxn.moves)
  · let s₁ := s.evict c p k.evicted n kn st
    have hn₁ : s₁.task n = .live kn := (setTask_task_ne hne).trans hn
    let s₂ : NetScheduler := { s₁.setTask n { kn with runState := .yielding }
      with yieldingTasks := s₁.yieldingTasks ++ [n] }
    have hyield : Move s₁ H s₂ (H \ {n}) := .yield hn₁ hnH
    have htouch : Move s₂ (H \ {n}) (s₂.setTask n
        { kn with runState := .yielding, startSubmit := some now })
        (H \ {n}) :=
      .touch (setTask_task_self s₁ n _) (Or.inr ⟨rfl, rfl⟩) rfl
    have hset : s₂.setTask n
        { kn with runState := .yielding, startSubmit := some now } =
        { s₁.setTask n
            { kn with runState := .yielding, startSubmit := some now } with
          yieldingTasks := s.yieldingTasks ++ [n] } := by
      simp only [s₂, NetScheduler.setTask, Function.update_idem]
      rfl
    rw [hset] at htouch
    have hevict : Moves s H s₁ H := evict_moves hp hcur hk rfl
    exact hevict.trans (.head hyield (.head htouch Move.countTxn.moves))

end Replace

end GhostDataplane.Agent
