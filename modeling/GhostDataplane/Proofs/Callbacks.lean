import GhostDataplane.Proofs.Moves

/-!
# The callbacks as moves

Each operation below the scheduling round is read backwards from a successful
run into the moves it made. The primitives come first, one lemma each saying
what their success means for the tables; `syncCpuState_cases` says once what
reaping can do, and the callbacks are chains of these. Where a callback takes
a task off a CPU, that the task is on the CPU at all is the invariant's
knowledge, so the lemmas of this file that need it take `Placed`.
-/

namespace GhostDataplane.Agent

open GhostDataplane.Lib

/-! ## The primitives -/

theorem deref_ok {t : TaskId} {s : NetScheduler} {r : NetTask × NetScheduler} :
    deref t s = .ok r ↔ ∃ k, s.task t = .live k ∧ r = (k, s) := by
  unfold deref
  split
  · next k hk =>
      constructor
      · intro h
        injection h with h
        exact ⟨k, hk, h.symm⟩
      · rintro ⟨k', hk', rfl⟩
        rw [hk] at hk'
        cases hk'
        rfl
  · next hne =>
      constructor
      · intro h
        cases h
      · rintro ⟨k, hk, -⟩
        exact absurd hk (hne k)

theorem modifyTask_ok {t : TaskId} {f : NetTask → NetTask} {s : NetScheduler}
    {r : Unit × NetScheduler} :
    modifyTask t f s = .ok r ↔
      ∃ k, s.task t = .live k ∧ r = ((), s.setTask t (f k)) := by
  unfold modifyTask
  split
  · next k hk =>
      constructor
      · intro h
        injection h with h
        exact ⟨k, hk, h.symm⟩
      · rintro ⟨k', hk', rfl⟩
        rw [hk] at hk'
        cases hk'
        rfl
  · next hne =>
      constructor
      · intro h
        cases h
      · rintro ⟨k, hk, -⟩
        exact absurd hk (hne k)

theorem check_ok {b : Bool} {c : Check} {s : NetScheduler}
    {r : Unit × NetScheduler} :
    check b c s = .ok r ↔ b = true ∧ r = ((), s) := Checked.check_ok

theorem bind_deref {α : Type} {t : TaskId} {f : NetTask → Sched α}
    {s : NetScheduler} {r : α × NetScheduler} :
    (deref t >>= f) s = .ok r ↔ ∃ k, s.task t = .live k ∧ f k s = .ok r := by
  rw [Checked.bind_ok]
  simp only [deref_ok]
  constructor
  · rintro ⟨a, s₁, ⟨k, hk, h⟩, hf⟩
    cases h
    exact ⟨a, hk, hf⟩
  · rintro ⟨k, hk, hf⟩
    exact ⟨k, s, ⟨k, hk, rfl⟩, hf⟩

theorem bind_modifyTask {α : Type} {t : TaskId} {g : NetTask → NetTask}
    {f : Unit → Sched α} {s : NetScheduler} {r : α × NetScheduler} :
    (modifyTask t g >>= f) s = .ok r ↔
      ∃ k, s.task t = .live k ∧ f () (s.setTask t (g k)) = .ok r := by
  rw [Checked.bind_ok]
  simp only [modifyTask_ok]
  constructor
  · rintro ⟨a, s₁, ⟨k, hk, h⟩, hf⟩
    cases h
    exact ⟨k, hk, hf⟩
  · rintro ⟨k, hk, hf⟩
    exact ⟨(), _, ⟨k, hk, rfl⟩, hf⟩

theorem bind_check {α : Type} {b : Bool} {c : Check} {f : Unit → Sched α}
    {s : NetScheduler} {r : α × NetScheduler} :
    (check b c >>= f) s = .ok r ↔ b = true ∧ f () s = .ok r :=
  Checked.bind_check

theorem succeeds_bind_deref {α : Type} {t : TaskId} {f : NetTask → Sched α}
    {s : NetScheduler} {k : NetTask} (hk : s.task t = .live k) :
    (deref t >>= f).Succeeds s ↔ (f k).Succeeds s :=
  Checked.succeeds_bind (deref_ok.mpr ⟨k, hk, rfl⟩)

theorem succeeds_bind_modifyTask {α : Type} {t : TaskId}
    {g : NetTask → NetTask} {f : Unit → Sched α} {s : NetScheduler}
    {k : NetTask} (hk : s.task t = .live k) :
    (modifyTask t g >>= f).Succeeds s ↔
      (f ()).Succeeds (s.setTask t (g k)) :=
  Checked.succeeds_bind (modifyTask_ok.mpr ⟨k, hk, rfl⟩)

theorem succeeds_bind_check {α : Type} {b : Bool} {c : Check}
    {f : Unit → Sched α} {s : NetScheduler} (hb : b = true) :
    (check b c >>= f).Succeeds s ↔ (f ()).Succeeds s :=
  Checked.succeeds_bind_check hb

theorem deref_bind {α : Type} {t : TaskId} {f : NetTask → Sched α}
    {s : NetScheduler} {k : NetTask} (hk : s.task t = .live k) :
    (deref t >>= f) s = f k s :=
  Checked.bind_eq (deref_ok.mpr ⟨k, hk, rfl⟩)

theorem modifyTask_bind {α : Type} {t : TaskId} {g : NetTask → NetTask}
    {f : Unit → Sched α} {s : NetScheduler} {k : NetTask}
    (hk : s.task t = .live k) :
    (modifyTask t g >>= f) s = f () (s.setTask t (g k)) :=
  Checked.bind_eq (modifyTask_ok.mpr ⟨k, hk, rfl⟩)

theorem check_bind {α : Type} {b : Bool} {c : Check} {f : Unit → Sched α}
    {s : NetScheduler} (hb : b = true) : (check b c >>= f) s = f () s :=
  Checked.check_bind hb

/-- Polling the request of `c` either left it alone or found the answer that
had been on its way. -/
def Polled (c : CpuId) (s s' : NetScheduler) : Prop :=
  s' = s ∨ ∃ st, s.req c = .inFlight ∧ s' = s.setReq c (.committed st)

theorem Polled.moves {c : CpuId} {s s' : NetScheduler} {H : Set TaskId}
    (h : Polled c s s') (hn : (s.cpuStates c).next = none) :
    Moves s H s' H := by
  rcases h with rfl | ⟨st, hr, rfl⟩
  · exact .refl
  · exact (Move.poll hn hr).moves

/-- Polling touches nothing but the request. -/
theorem Polled.eq {c : CpuId} {s s' : NetScheduler} (h : Polled c s s') :
    s' = { s with req := s'.req } := by
  rcases h with rfl | ⟨st, -, rfl⟩ <;> rfl

/-- A request found committed was so already or was in flight. -/
theorem Polled.eq_setReq {c : CpuId} {s s' : NetScheduler} {st : TxnState}
    (h : Polled c s s') (hst : s'.req c = .committed st) :
    s' = s.setReq c (.committed st) ∧
      (s.req c = .inFlight ∨ s.req c = .committed st) := by
  rcases h with rfl | ⟨st', hr, rfl⟩
  · exact ⟨by rw [NetScheduler.setReq, ← hst, Function.update_eq_self],
      Or.inr hst⟩
  · have hself : (s.setReq c (.committed st')).req c = .committed st' :=
      Function.update_self c _ _
    cases hself.symm.trans hst
    exact ⟨rfl, Or.inl hr⟩

theorem committed_ok {c : CpuId} {answer : Option TxnState}
    {s s' : NetScheduler} {b : Bool} (h : committed c answer s = .ok (b, s')) :
    Polled c s s' ∧ (b = true → ∃ st, s'.req c = .committed st) ∧
      (b = false → s' = s ∧ s.req c = .inFlight) := by
  unfold committed at h
  split at h
  · next st hr =>
      injection h with h
      injection h with hb hs
      subst hb hs
      exact ⟨Or.inl rfl, fun _ => ⟨st, hr⟩, fun hf => by cases hf⟩
  · next st hr =>
      injection h with h
      injection h with hb hs
      subst hb hs
      refine ⟨Or.inr ⟨st, hr, rfl⟩, fun _ => ⟨st, ?_⟩, fun hf => by cases hf⟩
      exact Function.update_self c _ s.req
  · next hr =>
      injection h with h
      injection h with hb hs
      subst hb hs
      exact ⟨Or.inl rfl, (fun hf => by cases hf), fun _ => ⟨rfl, hr⟩⟩

theorem modifyTask_move {t : TaskId} {f : NetTask → NetTask}
    {s s' : NetScheduler} {u : Unit} {H : Set TaskId}
    (h : modifyTask t f s = .ok (u, s'))
    (hf : ∀ k, (f k).runState = k.runState ∧ (f k).cpu = k.cpu ∧
      (f k).fixed = k.fixed) : Move s H s' H := by
  obtain ⟨k, hk, hr⟩ := modifyTask_ok.mp h
  cases hr
  exact .touch hk (Or.inr ⟨(hf k).1, (hf k).2.1⟩) (hf k).2.2

theorem updateTaskRuntime_ok {t : TaskId} {r : Nat} {b : Bool}
    {s s' : NetScheduler} {u : Unit}
    (h : updateTaskRuntime t r b s = .ok (u, s')) :
    ∃ k, s.task t = .live k ∧ k.runtime ≤ r ∧
      s' = s.setTask t
        { k with
          elapsedRuntime :=
            if b then k.elapsedRuntime + (r - k.runtime) else k.elapsedRuntime
          runtime := r } := by
  simp only [updateTaskRuntime, bind_deref, bind_check, modifyTask_ok] at h
  obtain ⟨k, hk, hle, k', hk', hr⟩ := h
  rw [hk] at hk'
  cases hk'
  cases hr
  exact ⟨k, hk, of_decide_eq_true hle, rfl⟩

theorem updateTaskRuntime_move {t : TaskId} {r : Nat} {b : Bool}
    {s s' : NetScheduler} {u : Unit} {H : Set TaskId}
    (h : updateTaskRuntime t r b s = .ok (u, s')) : Move s H s' H := by
  obtain ⟨k, hk, -, rfl⟩ := updateTaskRuntime_ok h
  exact .touch hk (Or.inr ⟨rfl, rfl⟩) rfl

theorem enqueue_ok {t : TaskId} {s s' : NetScheduler} {u : Unit} :
    enqueue t s = .ok (u, s') ↔
      ∃ k, s.task t = .live k ∧
        s' = (s.setTask t { k with runState := .queued }).push t k := by
  simp only [enqueue, bind_modifyTask, bind_deref, setTask_task_self,
    Slot.live.injEq, exists_eq_left', Checked.modify_ok]
  constructor
  · rintro ⟨k, hk, hr⟩
    cases hr
    exact ⟨k, hk, rfl⟩
  · rintro ⟨k, hk, rfl⟩
    exact ⟨k, hk, rfl⟩

theorem enqueue_eq {t : TaskId} {s : NetScheduler} {k : NetTask}
    (hk : s.task t = .live k) :
    enqueue t s =
      .ok ((), (s.setTask t { k with runState := .queued }).push t k) :=
  enqueue_ok.mpr ⟨k, hk, rfl⟩

theorem enqueue_move {t : TaskId} {s s' : NetScheduler} {u : Unit}
    {H : Set TaskId} (h : enqueue t s = .ok (u, s')) (ht : t ∈ H) :
    Move s H s' (H \ {t}) := by
  obtain ⟨k, hk, rfl⟩ := enqueue_ok.mp h
  exact .enqueue hk ht

theorem yieldTask_ok {t : TaskId} {s s' : NetScheduler} {u : Unit} :
    yieldTask t s = .ok (u, s') ↔
      ∃ k, s.task t = .live k ∧
        (k.runState = .onCpu ∨ k.runState = .queued ∨ k.runState = .blocked) ∧
        s' = { s.setTask t { k with runState := .yielding } with
          yieldingTasks := s.yieldingTasks ++ [t] } := by
  simp only [yieldTask, bind_deref, bind_check, bind_modifyTask,
    Checked.modify_ok, Bool.or_eq_true, decide_eq_true_eq, or_assoc]
  constructor
  · rintro ⟨k, hk, hrs, k', hk', hr⟩
    rw [hk] at hk'
    cases hk'
    cases hr
    exact ⟨k, hk, hrs, rfl⟩
  · rintro ⟨k, hk, hrs, rfl⟩
    exact ⟨k, hk, hrs, k, hk, rfl⟩

theorem yieldTask_move {t : TaskId} {s s' : NetScheduler} {u : Unit}
    {H : Set TaskId} (h : yieldTask t s = .ok (u, s')) (ht : t ∈ H) :
    Move s H s' (H \ {t}) := by
  obtain ⟨k, hk, -, rfl⟩ := yieldTask_ok.mp h
  exact .yield hk ht

theorem cpuEnteringSwitchto_move {cfg : Config} {cpu : Int}
    {s s' : NetScheduler} {u : Unit} {H : Set TaskId}
    (h : cpuEnteringSwitchto cfg cpu s = .ok (u, s')) : Move s H s' H := by
  simp only [cpuEnteringSwitchto, bind_check, Checked.bind_get,
    Checked.modify_ok] at h
  obtain ⟨-, -, -, hr⟩ := h
  cases hr
  exact .switchto

theorem cpuLeavingSwitchto_move {cfg : Config} {cpu : Int}
    {s s' : NetScheduler} {u : Unit} {H : Set TaskId}
    (h : cpuLeavingSwitchto cfg cpu s = .ok (u, s')) : Move s H s' H := by
  simp only [cpuLeavingSwitchto, bind_check, Checked.bind_get,
    Checked.modify_ok] at h
  obtain ⟨-, -, -, hr⟩ := h
  cases hr
  exact .switchto

/-- The CPU that `cpu_state_of` finds is the one the task's record names, and
the task is on it in one of the two ways. -/
theorem cpuStateOf_ok {t : TaskId} {s s' : NetScheduler} {c : CpuId}
    (h : cpuStateOf t s = .ok (c, s')) :
    s' = s ∧ ∃ k, s.task t = .live k ∧ k.cpu = some c ∧
      (k.runState = .onCpu ∨ k.runState = .pending) ∧
      ((s.cpuStates c).current = some t ∨ (s.cpuStates c).next = some t) := by
  simp only [cpuStateOf, bind_deref] at h
  obtain ⟨k, hk, h⟩ := h
  cases hd : k.cpu with
  | none =>
      simp only [hd] at h
      exact (Checked.throw_ok.mp h).elim
  | some d =>
      simp only [hd, bind_check, Checked.bind_get, Checked.pure_ok,
        Bool.or_eq_true, decide_eq_true_eq] at h
      obtain ⟨hrs, hcn, hr⟩ := h
      cases hr
      exact ⟨rfl, k, hk, hd, hrs, hcn⟩

/-! ## Reaping -/

/-- The tables after a successful transaction was reaped. -/
def reapedOk (s : NetScheduler) (c : CpuId) (t : TaskId) (k : NetTask) :
    NetScheduler :=
  ((s.reap c t .complete).setCurrent c (some t)).setTask t
    { k with runState := .onCpu, prioBoost := false, cpu := some c }

/-- The tables after a failed one was. -/
def reapedFail (s : NetScheduler) (c : CpuId) (t : TaskId) (k : NetTask)
    (st : TxnState) : NetScheduler :=
  ((s.reap c t st).setTask t
    { k with cpu := none, startSubmit := none, runState := .queued }).push t k

theorem reapedOk_current {s : NetScheduler} {c : CpuId} {t : TaskId}
    {k : NetTask} : ((reapedOk s c t k).cpuStates c).current = some t :=
  congrArg CpuState.current (setCpu_self _ c _)

theorem reapedFail_current {s : NetScheduler} {c : CpuId} {t : TaskId}
    {k : NetTask} {st : TxnState} :
    ((reapedFail s c t k st).cpuStates c).current =
      (s.cpuStates c).current := by
  simp [reapedFail, NetScheduler.push, NetScheduler.reap, NetScheduler.setNext,
    NetScheduler.setTask]

/-- The transaction of `c` was found committed and reaped, and `b` says
whether it had succeeded. -/
def Reaped (c : CpuId) (s s' : NetScheduler) (b : Bool) : Prop :=
  ∃ t k st, (s.cpuStates c).next = some t ∧ s.task t = .live k ∧
    (s.req c = .inFlight ∨ s.req c = .committed st) ∧
    ((st = .complete ∧ b = true ∧ s' = reapedOk s c t k) ∨
      (st ≠ .complete ∧ b = false ∧ s' = reapedFail s c t k st))

/-- All that `SyncCpuState` can do. -/
theorem syncCpuState_cases {c : CpuId} {answer : Option TxnState}
    {s s' : NetScheduler} {b : Bool}
    (h : syncCpuState (some c) answer s = .ok (b, s')) :
    ((s.cpuStates c).next = none ∧ b = true ∧ s' = s) ∨ Reaped c s s' b := by
  simp only [syncCpuState, Checked.bind_get] at h
  cases hn : (s.cpuStates c).next with
  | none =>
      simp only [hn] at h
      cases Checked.pure_ok.mp h
      exact Or.inl ⟨rfl, rfl, rfl⟩
  | some t =>
      simp only [hn, bind_deref, bind_check] at h
      obtain ⟨k, hk, -, h⟩ := h
      obtain ⟨done, s₁, hcom, h⟩ := Checked.bind_ok.mp h
      simp only [bind_check, Checked.bind_modify, Checked.bind_get] at h
      obtain ⟨rfl, h⟩ := h
      obtain ⟨hpoll, hst, -⟩ := committed_ok hcom
      obtain ⟨st, hst⟩ := hst rfl
      have hreq : (s₁.setNext c none).req c = .committed st := hst
      obtain ⟨rfl, hr⟩ := hpoll.eq_setReq hst
      refine Or.inr ⟨t, k, st, hn, hk, hr, ?_⟩
      cases st with
      | complete =>
          simp only [hreq, Checked.bind_modify, bind_modifyTask,
            Checked.pure_ok] at h
          obtain ⟨k', hk', hr'⟩ := h
          cases Slot.live.inj (hk'.symm.trans hk)
          cases hr'
          exact Or.inl ⟨rfl, rfl, rfl⟩
      | cpuUnavail | other =>
          simp only [hreq, bind_modifyTask] at h
          obtain ⟨k', hk', h⟩ := h
          cases Slot.live.inj (hk'.symm.trans hk)
          obtain ⟨_, s₂, henq, h⟩ := Checked.bind_ok.mp h
          obtain ⟨k₂, hk₂, rfl⟩ := enqueue_ok.mp henq
          rw [setTask_task_self] at hk₂
          cases hk₂
          simp only [Checked.bind_modify, Checked.pure_ok] at h
          cases h
          refine Or.inr ⟨by simp, rfl, ?_⟩
          rw [setTask_setTask]
          rfl

/-- Reaping does not stop on a pending task whose request has committed. -/
theorem syncCpuState_succeeds {c : CpuId} {answer : Option TxnState}
    {s : NetScheduler}
    (hnext : ∀ t, (s.cpuStates c).next = some t →
      ∃ k st, s.task t = .live k ∧ k.runState ≠ .queued ∧
        s.req c = .committed st) :
    (syncCpuState (some c) answer).Succeeds s := by
  simp only [syncCpuState]
  rw [Checked.succeeds_bind_get]
  cases hn : (s.cpuStates c).next with
  | none => exact Checked.succeeds_pure
  | some t =>
      obtain ⟨k, st, hk, hq, hr⟩ := hnext t hn
      have hcom : committed c answer s = .ok (true, s) := by
        unfold committed
        rw [hr]
      have hreq : (s.setNext c none).req c = .committed st := hr
      have htask : (s.setNext c none).task t = .live k := hk
      simp only []
      rw [succeeds_bind_deref hk, succeeds_bind_check (by simpa using hq),
        Checked.succeeds_bind hcom, succeeds_bind_check rfl,
        Checked.succeeds_bind_modify, Checked.succeeds_bind_get]
      cases st with
      | complete =>
          simp only [hreq]
          rw [Checked.succeeds_bind_modify,
            succeeds_bind_modifyTask (by exact htask),
            Checked.succeeds_bind_modify]
          exact Checked.succeeds_pure
      | cpuUnavail | other =>
          simp only [hreq]
          rw [succeeds_bind_modifyTask htask,
            Checked.succeeds_bind (enqueue_eq (setTask_task_self _ _ _)),
            Checked.succeeds_bind_modify]
          exact Checked.succeeds_pure

theorem insert_diff {H : Set TaskId} {t : TaskId} (ht : t ∉ H) :
    insert t H \ {t} = H := Set.insert_sdiff_self_of_notMem ht

/-- Reaping takes the task off the CPU's `next` and puts it where the answer
says. -/
theorem Reaped.moves {c : CpuId} {s s' : NetScheduler} {b : Bool}
    {H : Set TaskId} (hp : Placed s H) (h : Reaped c s s' b) :
    Moves s H s' H := by
  obtain ⟨t, k, st, hn, hk, hr, hcase⟩ := h
  have htH := (hp.at_next hk hn).1
  have hcur : (s.cpuStates c).current = none :=
    (hp.exclusive c).resolve_right (by simp [hn])
  refine .head (.reap hk hn hr) ?_
  have hmem : t ∈ insert t H := Set.mem_insert t H
  rcases hcase with ⟨rfl, -, rfl⟩ | ⟨-, -, rfl⟩
  · have hrun : Move (s.reap c t .complete) (insert t H) (reapedOk s c t k)
        (insert t H \ {t}) := by
      refine .run hk hmem ?_ ?_ rfl rfl rfl
      · simpa [NetScheduler.reap, NetScheduler.setNext] using hcur
      · simp [NetScheduler.reap, NetScheduler.setNext]
    rw [insert_diff htH] at hrun
    exact hrun.moves
  · let k₁ : NetTask := { k with cpu := none, startSubmit := none }
    have htouch : Move (s.reap c t st) (insert t H)
        ((s.reap c t st).setTask t k₁) (insert t H) :=
      .touch hk (Or.inl hmem) rfl
    have henq := Move.enqueue
      (setTask_task_self (s.reap c t st) t k₁) hmem
    rw [setTask_setTask, insert_diff htH] at henq
    exact .head htouch henq.moves

/-! ## Leaving a CPU -/

/-- The reaping inside `leaveCpu` does nothing, or it finds a success. -/
theorem leaveCpu_synced {t : TaskId} {msg : TaskOffCpuMsg} {c : CpuId}
    {k : NetTask} {s s' : NetScheduler} {u : Unit} (hk : s.task t = .live k)
    (hcpu : k.cpu = some c)
    (h : (if k.runState = .pending then do
        let s ← Checked.get
        check ((s.cpuStates c).next = some t) .nextIsTask
        check ((s.cpuStates c).current = none) .noCurrent
        let completed ← syncCpuState k.cpu msg.answer
        check completed .synced
      else pure () : Sched Unit) s = .ok (u, s')) :
    (k.runState ≠ .pending ∧ s' = s) ∨
      (Reaped c s s' true ∧ s' = reapedOk s c t k) := by
  by_cases hpend : k.runState = .pending
  · rw [if_pos hpend, hcpu] at h
    simp only [Checked.bind_get, bind_check] at h
    obtain ⟨hn, -, h⟩ := h
    obtain ⟨b, s₁, hsync, h⟩ := Checked.bind_ok.mp h
    obtain ⟨rfl, hr⟩ := check_ok.mp h
    cases hr
    have hn := of_decide_eq_true hn
    have hreap : Reaped c s s' true := by
      refine (syncCpuState_cases hsync).resolve_left fun hidle => ?_
      cases hn.symm.trans hidle.1
    refine Or.inr ⟨hreap, ?_⟩
    obtain ⟨t', k', st, hn', hk', -, ⟨-, -, rfl⟩ | ⟨-, hf, -⟩⟩ := hreap
    · cases hn.symm.trans hn'
      cases hk.symm.trans hk'
      rfl
    · cases hf
  · rw [if_neg hpend] at h
    cases Checked.pure_ok.mp h
    exact Or.inl ⟨hpend, rfl⟩

/-- Whichever way the task was on the CPU, it is current there afterwards. -/
theorem leaveCpu_current {t : TaskId} {c : CpuId} {k : NetTask}
    {s s' : NetScheduler} {H : Set TaskId} (hp : Placed s H) (ht : t ∉ H)
    (hk : s.task t = .live k) (hcpu : k.cpu = some c)
    (hrs : k.runState = .onCpu ∨ k.runState = .pending)
    (h : (k.runState ≠ .pending ∧ s' = s) ∨
      (Reaped c s s' true ∧ s' = reapedOk s c t k)) :
    Moves s H s' H ∧ (s'.cpuStates c).current = some t ∧
      ∃ k', s'.task t = .live k' := by
  rcases h with ⟨hpend, rfl⟩ | ⟨hreap, rfl⟩
  · obtain ⟨c', hc', hcur⟩ :=
      hp.current_of_onCpu hk ht (hrs.resolve_right hpend)
    cases hcpu.symm.trans hc'
    exact ⟨.refl, hcur, k, hk⟩
  · exact ⟨hreap.moves hp, reapedOk_current, _, setTask_task_self _ _ _⟩

theorem leaveCpu_moves {t : TaskId} {msg : TaskOffCpuMsg}
    {s s' : NetScheduler} {u : Unit} {H : Set TaskId} (hp : Placed s H)
    (ht : t ∉ H) (h : leaveCpu t msg s = .ok (u, s')) :
    Moves s H s' (insert t H) := by
  simp only [leaveCpu, Checked.bind_ok] at h
  obtain ⟨_, s₁, hrt, c, s₂, hof, h⟩ := h
  have hm₁ : Moves s H s₁ H := (updateTaskRuntime_move hrt).moves
  have hp₁ := hp.moves hm₁
  obtain ⟨rfl, k, hk, hcpu, hrs, -⟩ := cpuStateOf_ok hof
  obtain ⟨k', _, hk', _, s₃, hif, h⟩ := h
  obtain ⟨k'', hk'', hr⟩ := deref_ok.mp hk'
  cases hr
  rw [hk] at hk''
  cases hk''
  obtain ⟨hm₂, hcur, k₃, hk₃⟩ := leaveCpu_current hp₁ ht hk hcpu hrs
    (leaveCpu_synced hk hcpu hif)
  cases Checked.modify_ok.mp h
  exact hm₁.trans (hm₂.trans (Move.vacate hk₃ hcur).moves)

/-- A task at the end of a switchto chain is a blocked one, and stays so. -/
theorem leaveSwitchto_ok {cfg : Config} {t : TaskId} {msg : TaskOffCpuMsg}
    {s s' : NetScheduler} {u : Unit} {H : Set TaskId}
    (h : leaveSwitchto cfg t msg s = .ok (u, s')) :
    Moves s H s' H ∧ ∃ k, s'.task t = .live k ∧ k.runState = .blocked := by
  unfold leaveSwitchto at h
  obtain ⟨k, hk, h⟩ := bind_deref.mp h
  obtain ⟨hb, h⟩ := bind_check.mp h
  obtain ⟨_, s₁, hrt, h⟩ := Checked.bind_ok.mp h
  have hm := updateTaskRuntime_move (H := H) hrt
  obtain ⟨k', hk', -, rfl⟩ := updateTaskRuntime_ok hrt
  rw [hk] at hk'
  cases hk'
  refine ⟨hm.moves.trans (cpuLeavingSwitchto_move h).moves,
    { k with
      elapsedRuntime := k.elapsedRuntime + (msg.runtime - k.runtime)
      runtime := msg.runtime }, ?_, of_decide_eq_true hb⟩
  simp only [cpuLeavingSwitchto, bind_check, Checked.bind_get,
    Checked.modify_ok] at h
  obtain ⟨-, -, -, hr⟩ := h
  cases hr
  exact setTask_task_self s t _

/-- What the callbacks do with a task they took in hand. -/
def PutsBack (t : TaskId) (f : Sched Unit) : Prop :=
  ∀ s s' H, t ∉ H → f s = .ok ((), s') → Moves s (insert t H) s' H

theorem putsBack_enqueue (t : TaskId) : PutsBack t (enqueue t) := by
  intro s s' H ht h
  have hm := enqueue_move h (Set.mem_insert t H)
  rw [insert_diff ht] at hm
  exact hm.moves

theorem putsBack_yieldTask (t : TaskId) : PutsBack t (yieldTask t) := by
  intro s s' H ht h
  have hm := yieldTask_move h (Set.mem_insert t H)
  rw [insert_diff ht] at hm
  exact hm.moves

theorem putsBack_block (t : TaskId) :
    PutsBack t (modifyTask t fun k => { k with runState := .blocked }) := by
  intro s s' H ht h
  obtain ⟨k, hk, hr⟩ := modifyTask_ok.mp h
  cases hr
  have hm := Move.block hk (Set.mem_insert t H)
  rw [insert_diff ht] at hm
  exact hm.moves

theorem leaveCpu_putsBack {t : TaskId} {msg : TaskOffCpuMsg} {f : Sched Unit}
    {s s' : NetScheduler} {H : Set TaskId} (hf : PutsBack t f)
    (hp : Placed s H) (ht : t ∉ H)
    (h : (do leaveCpu t msg; f) s = .ok ((), s')) : Moves s H s' H := by
  obtain ⟨_, s₁, hleave, h⟩ := Checked.bind_ok.mp h
  exact (leaveCpu_moves hp ht hleave).trans (hf s₁ s' H ht h)

theorem leaveSwitchto_putsBack {cfg : Config} {t : TaskId}
    {msg : TaskOffCpuMsg} {f : Sched Unit} {s s' : NetScheduler}
    {H : Set TaskId} (hf : PutsBack t f) (ht : t ∉ H)
    (h : (do leaveSwitchto cfg t msg; f) s = .ok ((), s')) :
    Moves s H s' H := by
  obtain ⟨_, s₁, hleave, h⟩ := Checked.bind_ok.mp h
  obtain ⟨hm, k, hk, hb⟩ := leaveSwitchto_ok (H := H) hleave
  exact hm.trans (.head (.wake hk hb ht) (hf s₁ s' H ht h))

/-! ## Leaving a run queue -/

theorem removeFromRunqueue_ok {t : TaskId} {rs : RunState}
    {s s' : NetScheduler} {u : Unit}
    (h : removeFromRunqueue t rs s = .ok (u, s')) :
    ∃ k, s.task t = .live k ∧ k.runState = .queued ∧
      t ∈ s.runQueue ++ s.runQueueLowPriority ∧
      s' = (s.unqueue t).setTask t { k with runState := rs } := by
  simp only [removeFromRunqueue, bind_deref, bind_check, Checked.bind_get] at h
  obtain ⟨k, hk, hq, h⟩ := h
  refine ⟨k, hk, of_decide_eq_true hq, ?_⟩
  by_cases hmem : t ∈ s.runQueue
  · rw [if_pos hmem] at h
    simp only [Checked.bind_modify, modifyTask_ok] at h
    obtain ⟨k', hk', hr⟩ := h
    cases hk.symm.trans hk'
    cases hr
    exact ⟨List.mem_append_left _ hmem,
      by rw [NetScheduler.unqueue, if_pos hmem]⟩
  · rw [if_neg hmem] at h
    obtain ⟨_, s₁, hlow, h⟩ := Checked.bind_ok.mp h
    obtain ⟨hin, hr⟩ := bind_check.mp hlow
    cases Checked.modify_ok.mp hr
    obtain ⟨k', hk', hr'⟩ := modifyTask_ok.mp h
    cases hk.symm.trans hk'
    cases hr'
    exact ⟨List.mem_append_right _ (of_decide_eq_true hin),
      by rw [NetScheduler.unqueue, if_neg hmem]⟩

theorem removeFromRunqueue_moves {t : TaskId} {s s' : NetScheduler} {u : Unit}
    {H : Set TaskId} (ht : t ∉ H)
    (h : removeFromRunqueue t .blocked s = .ok (u, s')) : Moves s H s' H := by
  obtain ⟨k, hk, -, hmem, rfl⟩ := removeFromRunqueue_ok h
  have hk' : (s.unqueue t).task t = .live k := by
    unfold NetScheduler.unqueue
    split <;> exact hk
  have hm := Move.block hk' (Set.mem_insert t H)
  rw [insert_diff ht] at hm
  exact .head (.unqueue hk hmem) hm.moves

/-! ## The callbacks -/

theorem advance_moves {t : TaskId} {n : Nat} {s s' : NetScheduler} {u : Unit}
    {H : Set TaskId} (h : advance t n s = .ok (u, s')) : Moves s H s' H :=
  (modifyTask_move h fun _ => ⟨rfl, rfl, rfl⟩).moves

theorem forgetSubmit_moves {t : TaskId} {msg : TaskOffCpuMsg}
    {s s' : NetScheduler} {u : Unit} {H : Set TaskId}
    (h : forgetSubmit t msg s = .ok (u, s')) : Moves s H s' H := by
  unfold forgetSubmit at h
  split at h
  · cases Checked.pure_ok.mp h
    exact .refl
  · exact (modifyTask_move h fun _ => ⟨rfl, rfl, rfl⟩).moves

theorem taskRunnable_moves {t : TaskId} {msg : TaskWakeupMsg}
    {s s' : NetScheduler} {H : Set TaskId} (ht : t ∉ H)
    (h : taskRunnable t msg s = .ok ((), s')) : Moves s H s' H := by
  simp only [taskRunnable, bind_deref, bind_check, bind_modifyTask] at h
  obtain ⟨k, hk, hb, -, k', hk', h⟩ := h
  cases hk.symm.trans hk'
  have htouch : Move s H (s.setTask t { k with prioBoost := !msg.deferrable })
      H := .touch hk (Or.inr ⟨rfl, rfl⟩) rfl
  exact .head htouch
    (.head (.wake (setTask_task_self s t _) (of_decide_eq_true hb) ht)
      (putsBack_enqueue t _ s' H ht h))

/-- The part that `TaskBlocked`, `TaskPreempted` and `TaskYield` share: a
write to the record that moves nothing, a middle part, and the submission
time. -/
theorem offCpu_moves {t : TaskId} {msg : TaskOffCpuMsg}
    {f : NetTask → NetTask} {body : NetTask → Sched Unit}
    {s s' : NetScheduler} {H : Set TaskId} (hp : Placed s H)
    (h : (do
      modifyTask t f
      let k ← deref t
      body k
      forgetSubmit t msg : Sched Unit) s = .ok ((), s'))
    (hf : ∀ k, (f k).runState = k.runState ∧ (f k).cpu = k.cpu ∧
      (f k).fixed = k.fixed)
    (hbody : ∀ k s s', Placed s H → body k s = .ok ((), s') →
      Moves s H s' H) : Moves s H s' H := by
  obtain ⟨_, s₁, hmod, h⟩ := Checked.bind_ok.mp h
  obtain ⟨k, hk, h⟩ := bind_deref.mp h
  obtain ⟨_, s₂, hb, h⟩ := Checked.bind_ok.mp h
  have hm := (modifyTask_move (H := H) hmod hf).moves
  exact hm.trans ((hbody k s₁ s₂ (hp.moves hm) hb).trans (forgetSubmit_moves h))

theorem taskBlocked_moves {cfg : Config} {t : TaskId} {msg : TaskOffCpuMsg}
    {s s' : NetScheduler} {H : Set TaskId} (hp : Placed s H) (ht : t ∉ H)
    (h : taskBlocked cfg t msg s = .ok ((), s')) : Moves s H s' H := by
  refine offCpu_moves hp h (fun _ => ⟨rfl, rfl, rfl⟩) fun k s s' hp hb => ?_
  split at hb
  · exact leaveCpu_putsBack (putsBack_block t) hp ht hb
  · split at hb
    · exact (leaveSwitchto_ok hb).1
    · exact removeFromRunqueue_moves ht (bind_check.mp hb).2

theorem taskPreempted_moves {cfg : Config} {t : TaskId} {msg : TaskOffCpuMsg}
    {s s' : NetScheduler} {H : Set TaskId} (hp : Placed s H) (ht : t ∉ H)
    (h : taskPreempted cfg t msg s = .ok ((), s')) : Moves s H s' H := by
  refine offCpu_moves hp h (fun _ => ⟨rfl, rfl, rfl⟩) fun k s s' hp hb => ?_
  split at hb
  · exact leaveCpu_putsBack (putsBack_enqueue t) hp ht hb
  · split at hb
    · exact leaveSwitchto_putsBack (putsBack_enqueue t) ht hb
    · cases (check_ok.mp hb).2
      exact .refl

theorem taskYield_moves {cfg : Config} {t : TaskId} {msg : TaskOffCpuMsg}
    {s s' : NetScheduler} {H : Set TaskId} (hp : Placed s H) (ht : t ∉ H)
    (h : taskYield cfg t msg s = .ok ((), s')) : Moves s H s' H := by
  refine offCpu_moves hp h (fun _ => ⟨rfl, rfl, rfl⟩) fun k s s' hp hb => ?_
  split at hb
  · exact leaveCpu_putsBack (putsBack_yieldTask t) hp ht hb
  · split at hb
    · exact leaveSwitchto_putsBack (putsBack_yieldTask t) ht hb
    · cases (check_ok.mp hb).2
      exact .refl

theorem taskSwitchto_moves {cfg : Config} {t : TaskId} {msg : TaskOffCpuMsg}
    {s s' : NetScheduler} {H : Set TaskId} (hp : Placed s H) (ht : t ∉ H)
    (h : taskSwitchto cfg t msg s = .ok ((), s')) : Moves s H s' H := by
  obtain ⟨_, s₁, henter, h⟩ := Checked.bind_ok.mp h
  obtain ⟨_, s₂, hmod, h⟩ := Checked.bind_ok.mp h
  obtain ⟨k, hk, h⟩ := bind_deref.mp h
  have hm := (cpuEnteringSwitchto_move (H := H) henter).moves.trans
    (modifyTask_move hmod fun _ => ⟨rfl, rfl, rfl⟩).moves
  refine hm.trans ?_
  split at h
  · exact leaveCpu_putsBack (putsBack_block t) (hp.moves hm) ht h
  · exact removeFromRunqueue_moves ht (bind_check.mp h).2

end GhostDataplane.Agent
