import GhostDataplane.Proofs.Replies
import GhostDataplane.Proofs.Turns

/-!
# Boosted tasks before regular ones

`Enqueue` puts a task with `prio_boost` or `preempted` at the front and every
other at the back, so a queue whose tasks keep their flags has the boosted
ones first. Of the operations that write the flags, all but two do it to a
task that is in no queue, or to one that leaves its queue before the
operation ends. The two are `TaskPreempted` and `TaskYield` for a task that is
queued: the first boosts it where it stands, perhaps behind regular tasks,
and the second takes the boost away where it stands, perhaps in front of
boosted ones. Nothing else can put the queues out of order.
-/

namespace GhostDataplane.Agent

open GhostDataplane.Lib

/-- The task goes to the front of its queue. -/
def NetTask.boosted (k : NetTask) : Bool := k.prioBoost || k.preempted

/-- `t` may stand before `u`: it is boosted if `u` is. -/
def MayPrecede (s : NetScheduler) (t u : TaskId) : Prop :=
  ∀ k l, s.task t = .live k → s.task u = .live l → l.boosted = true →
    k.boosted = true

/-- In both queues the boosted tasks come first. -/
structure BoostedFirst (s : NetScheduler) : Prop where
  high : s.runQueue.Pairwise (MayPrecede s)
  low : s.runQueueLowPriority.Pairwise (MayPrecede s)

/-- `t` stands before `u` in a run queue. -/
def Ahead (s : NetScheduler) (t u : TaskId) : Prop :=
  [t, u].Sublist s.runQueue ∨ [t, u].Sublist s.runQueueLowPriority

theorem boostedFirst_iff {s : NetScheduler} :
    BoostedFirst s ↔ ∀ t u, Ahead s t u → MayPrecede s t u := by
  constructor
  · intro h t u hahead
    rcases hahead with hsub | hsub
    · exact List.pairwise_iff_forall_sublist.mp h.high hsub
    · exact List.pairwise_iff_forall_sublist.mp h.low hsub
  · intro h
    exact ⟨List.pairwise_iff_forall_sublist.mpr fun hsub => h _ _ (Or.inl hsub),
      List.pairwise_iff_forall_sublist.mpr fun hsub => h _ _ (Or.inr hsub)⟩

/-! ## Changes that keep the order -/

/-- The queues lost tasks at most, and those that are left are as boosted as
before. -/
theorem BoostedFirst.shrink {s s' : NetScheduler} (h : BoostedFirst s)
    (hq : s'.runQueue.Sublist s.runQueue)
    (hl : s'.runQueueLowPriority.Sublist s.runQueueLowPriority)
    (hboost : ∀ t ∈ s'.runQueue ++ s'.runQueueLowPriority, ∀ k',
      s'.task t = .live k' →
        ∃ k, s.task t = .live k ∧ k.boosted = k'.boosted) :
    BoostedFirst s' := by
  have hkeep : ∀ q : List TaskId,
      (∀ t ∈ q, t ∈ s'.runQueue ++ s'.runQueueLowPriority) →
      q.Pairwise (MayPrecede s) → q.Pairwise (MayPrecede s') := by
    intro q hmem hpair
    refine hpair.imp_of_mem ?_
    intro t u ht hu hle k l hk hl hb
    obtain ⟨k₀, hk₀, hkb⟩ := hboost t (hmem t ht) k hk
    obtain ⟨l₀, hl₀, hlb⟩ := hboost u (hmem u hu) l hl
    rw [← hkb]
    exact hle k₀ l₀ hk₀ hl₀ (hlb.trans hb)
  exact ⟨hkeep _ (fun _ => List.mem_append_left _) (h.high.sublist hq),
    hkeep _ (fun _ => List.mem_append_right _) (h.low.sublist hl)⟩

/-- The same queues, and no flag changed in them. -/
theorem BoostedFirst.congr {s s' : NetScheduler} (h : BoostedFirst s)
    (hq : s'.runQueue = s.runQueue)
    (hl : s'.runQueueLowPriority = s.runQueueLowPriority)
    (htask : ∀ t ∈ s.runQueue ++ s.runQueueLowPriority,
      s'.task t = s.task t) : BoostedFirst s' := by
  refine h.shrink (hq ▸ List.Sublist.refl _) (hl ▸ List.Sublist.refl _) ?_
  intro t ht k' hk'
  rw [hq, hl] at ht
  exact ⟨k', (htask t ht).symm.trans hk', rfl⟩

theorem pairwise_pushEnd {s : NetScheduler} {q : List TaskId} {t : TaskId}
    {k l : NetTask} (h : q.Pairwise (MayPrecede s)) (hk : s.task t = .live k)
    (hl : l.boosted = k.boosted) :
    (NetScheduler.pushEnd q t l).Pairwise (MayPrecede s) := by
  have hdef : NetScheduler.pushEnd q t l =
      if l.boosted then t :: q else q ++ [t] := rfl
  rw [hdef]
  split
  · next hb =>
      refine List.pairwise_cons.mpr ⟨fun u _ k' l' hk' _ _ => ?_, h⟩
      cases hk.symm.trans hk'
      exact hl ▸ hb
  · next hb =>
      refine List.pairwise_append.mpr ⟨h, List.pairwise_singleton _ _, ?_⟩
      intro u _ v hv k' l' _ hl' hboost
      rw [List.mem_singleton] at hv
      subst hv
      cases hk.symm.trans hl'
      exact absurd (hl.trans hboost) hb

/-- `Enqueue` keeps the order. -/
theorem BoostedFirst.push {s : NetScheduler} {t : TaskId} {k l : NetTask}
    (h : BoostedFirst s) (hk : s.task t = .live k)
    (hl : l.boosted = k.boosted) : BoostedFirst (s.push t l) := by
  constructor
  · show List.Pairwise (MayPrecede s) (if l.highPriority then _ else _)
    split
    · exact pairwise_pushEnd h.high hk hl
    · exact h.high
  · show List.Pairwise (MayPrecede s) (if l.highPriority then _ else _)
    split
    · exact h.low
    · exact pairwise_pushEnd h.low hk hl

/-- A task that is in no queue may change. -/
theorem BoostedFirst.setTask {s : NetScheduler} {t : TaskId} {k : NetTask}
    (h : BoostedFirst s) (ht : t ∉ s.runQueue ++ s.runQueueLowPriority) :
    BoostedFirst (s.setTask t k) := by
  refine h.congr rfl rfl fun u hu => setTask_task_ne ?_
  intro hut
  exact ht (hut ▸ hu)

theorem At.not_mem_queue {s : NetScheduler} {t : TaskId} {p : Place}
    (h : At s t p) (hp : p ≠ .queue) :
    t ∉ s.runQueue ++ s.runQueueLowPriority := by
  have hq := h.queue
  rw [if_neg hp, List.count_eq_zero] at hq
  exact hq

/-- A task whose record does not say that it is queued is in no queue. -/
theorem Placed.not_mem_queue {s : NetScheduler} {H : Set TaskId} {t : TaskId}
    {k : NetTask} (hp : Placed s H) (hk : s.task t = .live k)
    (hst : k.runState ≠ .queued) :
    t ∉ s.runQueue ++ s.runQueueLowPriority := fun hmem =>
  hst (hp.queued_of_mem hk hmem).2

/-! ## The turns of a round -/

section Turns

variable {s s' : NetScheduler}

theorem BoostedFirst.settled {c : CpuId} (h : BoostedFirst s)
    (hp : Placed s ∅) (hset : Settled c s s') : BoostedFirst s' := by
  rcases hset with ⟨-, hpoll, -⟩ | ⟨b, t, k, st, hn, hk, -, hcase⟩
  · rw [hpoll.eq]
    exact h.congr rfl rfl fun _ _ => rfl
  · have hout := hp.not_mem_queue hk (by rw [(hp.at_next hk hn).2.1]; simp)
    have hreap : ∀ st, BoostedFirst (s.reap c t st) := fun st =>
      h.congr rfl rfl fun _ _ => rfl
    rcases hcase with ⟨-, -, rfl⟩ | ⟨-, -, rfl⟩
    · have hset := (hreap .complete).setTask (t := t)
        (k := { k with runState := .onCpu, prioBoost := false, cpu := some c })
        hout
      exact hset.congr rfl rfl fun _ _ => rfl
    · exact ((hreap st).setTask hout).push (setTask_task_self _ t _) rfl

theorem BoostedFirst.evict {c : CpuId} {p n : TaskId} {k l kn : NetTask}
    {st : TxnState} (h : BoostedFirst s) (hp : Placed s {n})
    (hk : s.task p = .live k) (hon : k.runState = .onCpu) :
    BoostedFirst (s.evict c p l n kn st) := by
  have hout := hp.not_mem_queue hk (by rw [hon]; simp)
  have hopen : BoostedFirst ((s.openSync c n kn st).setCurrent c none) :=
    h.congr rfl rfl fun _ _ => rfl
  exact (hopen.setTask hout).push (setTask_task_self _ p _) rfl

theorem BoostedFirst.replaced {c : CpuId} {p n : TaskId} {k kn : NetTask}
    {st : TxnState} {swRuntime : TaskId → Nat} {now : Int}
    (h : BoostedFirst s) (hp : Placed s {n})
    (hrep : Replaced s c n kn st swRuntime now p k s') : BoostedFirst s' := by
  have hnp : n ≠ p := by
    intro hnp
    have hhand := (hp.hand n rfl).1
    rw [hnp] at hhand
    exact Place.noConfusion ((hhand.current c).mp hrep.current)
  have hout : n ∉ s.runQueue ++ s.runQueueLowPriority :=
    (hp.hand n rfl).1.not_mem_queue (by simp)
  have hevict : ∀ l st, BoostedFirst (s.evict c p l n kn st) ∧
      n ∉ (s.evict c p l n kn st).runQueue ++
        (s.evict c p l n kn st).runQueueLowPriority := by
    intro l st
    refine ⟨h.evict hp hrep.live hrep.onCpu, fun hmem => ?_⟩
    exact (mem_push.mp hmem).elim hnp hout
  rcases hrep.result with ⟨-, rfl⟩ | ⟨-, rfl⟩
  · obtain ⟨hord, hnot⟩ := hevict (k.ranUntil (swRuntime p)).evicted .complete
    exact (hord.setTask hnot).congr rfl rfl fun _ _ => rfl
  · obtain ⟨hord, hnot⟩ := hevict k.evicted st
    exact (hord.setTask hnot).congr rfl rfl fun _ _ => rfl

theorem BoostedFirst.taken {n : TaskId} {k : NetTask} (h : BoostedFirst s)
    (ht : Taken s n k s') : BoostedFirst s' := by
  rcases dequeue_some ht.dequeued with ⟨rest, hq, rfl⟩ | ⟨-, rest, hl, rfl⟩
  · exact h.shrink (hq ▸ List.sublist_cons_self n rest) (List.Sublist.refl _)
      fun _ _ k' hk' => ⟨k', hk', rfl⟩
  · exact h.shrink (List.Sublist.refl _) (hl ▸ List.sublist_cons_self n rest)
      fun _ _ k' hk' => ⟨k', hk', rfl⟩

theorem BoostedFirst.turn {cfg : Config} {env : RoundEnv}
    (hp : Placed s ∅) (h : BoostedFirst s) (hturn : RoundTurn cfg env s s') :
    BoostedFirst s' := by
  cases hturn with
  | settled hset => exact h.settled hp hset
  | @assigned n k _ _ s₁ _ ht has _ _ =>
      have h₁ := h.taken ht
      have hp₁ : Placed s₁ {n} := by
        rw [← LawfulSingleton.insert_empty_eq]
        exact ht.placed
      have hout := (hp₁.hand n rfl).1.not_mem_queue (by simp)
      cases has with
      | stale _ | unplaced _ _ _ =>
          exact (h₁.setTask hout).congr rfl rfl fun _ _ => rfl
      | @batched c _ _ _ _ =>
          have hopen : BoostedFirst (s₁.openBatched c n k) :=
            h₁.congr rfl rfl fun _ _ => rfl
          exact hopen.setTask hout
      | replaced _ _ _ hrep => exact h₁.replaced hp₁ hrep
  | submitted => exact h.congr rfl rfl fun _ _ => rfl
  | @requeued t k ts hk hy =>
      have hst := (hp.yielding_of_mem hk (by simp [hy])).2
      have hset := h.setTask (k := { k with runState := .queued })
        (hp.not_mem_queue hk (by rw [hst]; simp))
      exact (hset.push (setTask_task_self s t _) rfl).congr rfl rfl
        fun _ _ => rfl
  | bumped => exact h.congr rfl rfl fun _ _ => rfl

theorem BoostedFirst.migrated {cfg : Config} {env : MigrateEnv} {c : CpuId}
    {s₁ s₂ : NetScheduler} (hp : Placed s ∅) (h : BoostedFirst s)
    (hm : Migrated cfg env s c s₁ s₂ s') : BoostedFirst s' := by
  have hp₁ := hp.moves (hm.settled.moves hp)
  have h₁ := h.settled hp hm.settled
  have h₂ : BoostedFirst s₂ := by
    cases hm.vacated with
    | idle _ => exact h₁
    | @evicted p k hcur hk hon hcpu =>
        have hopen : BoostedFirst ((s₁.openUnschedule c p .complete).setCurrent
            c none) := h₁.congr rfl rfl fun _ _ => rfl
        have hout := hp₁.not_mem_queue hk (by rw [hon]; simp)
        exact (hopen.setTask hout).push (setTask_task_self _ p _) rfl
  rw [hm.handOver]
  exact h₂.congr rfl rfl fun _ _ => rfl

end Turns

/-! ## Messages -/

section Messages

variable {s s' : NetScheduler} {t : TaskId} {k k' : NetTask}

/-- A message keeps the order unless it changes how boosted its task is while
the task stays queued. -/
theorem BoostedFirst.reply (hp : Placed s ∅) (h : BoostedFirst s)
    (hr : Reply t k k' s s')
    (hcase : k.runState = .queued → k'.runState = .queued →
      k'.boosted = k.boosted) : BoostedFirst s' := by
  cases hr.queue with
  | same hst hq hl =>
      by_cases hk : k.runState = .queued
      · refine h.shrink (hq ▸ List.Sublist.refl _) (hl ▸ List.Sublist.refl _) ?_
        intro u _ l hl
        by_cases hut : u = t
        · subst hut
          cases hr.task_self.symm.trans hl
          exact ⟨k, hr.live, (hcase hk (hst.mpr hk)).symm⟩
        · exact ⟨l, (hr.task_other hut).symm.trans hl, rfl⟩
      · have hout := hp.not_mem_queue hr.live hk
        exact h.congr hq hl fun u hu =>
          hr.task_other fun hut => hout (hut ▸ hu)
  | pushed hk hst hq hl =>
      have hout := hp.not_mem_queue hr.live hk
      have hpush :=
        (h.setTask (k := k') hout).push (setTask_task_self s t k') rfl
      refine hpush.congr hq hl fun u _ => ?_
      rw [hr.task]
      rfl
  | erased hk hst hq hl =>
      have hmem : t ∈ s.runQueue ++ s.runQueueLowPriority := by
        have hat := hp.at_queued hr.live (Set.notMem_empty t) hk
        rw [← List.count_pos_iff, hat.queue]
        simp
      have hout : t ∉ (s.unqueue t).runQueue ++
          (s.unqueue t).runQueueLowPriority :=
        ((hp.unqueue hr.live hmem).hand t (Set.mem_insert t ∅)).1.not_mem_queue
          (by simp)
      have hsub : (s.unqueue t).runQueue.Sublist s.runQueue ∧
          (s.unqueue t).runQueueLowPriority.Sublist s.runQueueLowPriority := by
        unfold NetScheduler.unqueue
        split
        · exact ⟨List.erase_sublist, List.Sublist.refl _⟩
        · exact ⟨List.Sublist.refl _, List.erase_sublist⟩
      refine h.shrink (hq ▸ hsub.1) (hl ▸ hsub.2) fun u hu l hl' => ?_
      rw [hq, hl] at hu
      have hut : u ≠ t := fun hut => hout (hut ▸ hu)
      exact ⟨l, (hr.task_other hut).symm.trans hl', rfl⟩

/-- A message that leaves its task queued keeps the order if the task, as
boosted as it is now, fits where it stands. -/
theorem boostedFirst_inPlace_iff (h : BoostedFirst s) (hr : Reply t k k' s s')
    (hq : k.runState = .queued) (hq' : k'.runState = .queued) :
    BoostedFirst s' ↔ ∀ u l, u ≠ t → s.task u = .live l →
      (Ahead s u t → k'.boosted = true → l.boosted = true) ∧
      (Ahead s t u → l.boosted = true → k'.boosted = true) := by
  have hahead : ∀ u v, Ahead s' u v ↔ Ahead s u v := by
    intro u v
    cases hr.queue with
    | same _ hq hl => rw [Ahead, hq, hl, Ahead]
    | pushed hk _ _ _ => exact absurd hq hk
    | erased _ hst _ _ => exact absurd hq' hst
  rw [boostedFirst_iff]
  simp only [hahead]
  constructor
  · intro h' u l hut hl
    have hl' := (hr.task_other hut).trans hl
    exact ⟨fun hu hb => h' u t hu l k' hl' hr.task_self hb,
      fun hu hb => h' t u hu k' l hr.task_self hl' hb⟩
  · intro hfits u v huv l m hl hm hmb
    by_cases hut : u = t
    · subst hut
      cases hr.task_self.symm.trans hl
      by_cases hvu : v = u
      · subst hvu
        cases hr.task_self.symm.trans hm
        exact hmb
      · rw [hr.task_other hvu] at hm
        exact (hfits v m hvu hm).2 huv hmb
    · rw [hr.task_other hut] at hl
      by_cases hvt : v = t
      · subst hvt
        cases hr.task_self.symm.trans hm
        exact (hfits u l hut hl).1 huv hmb
      · rw [hr.task_other hvt] at hm
        exact boostedFirst_iff.mp h u v huv l m hl hm hmb

end Messages

/-! ## One step -/

/-- No message changes how boosted a queued task is where it stands, unless
the task belongs there all the same. -/
def orderKept (s : NetScheduler) : Op → Prop
  | .taskPreempted t _ => ∀ k, s.task t = .live k → k.runState = .queued →
      ∀ u l, u ≠ t → Ahead s u t → s.task u = .live l → l.boosted = true
  | .taskYield t _ => ∀ k, s.task t = .live k → k.runState = .queued →
      k.preempted = false →
      ∀ u l, u ≠ t → Ahead s t u → s.task u = .live l → l.boosted = false
  | _ => True

theorem NetTask.boosted_of_preempted {k : NetTask}
    (h : k.preempted = true) : k.boosted = true := by
  simp [NetTask.boosted, h]

theorem NetTask.not_boosted {k : NetTask} (hboost : k.prioBoost = false)
    (hpre : k.preempted = false) : k.boosted = false := by
  simp [NetTask.boosted, hboost, hpre]

theorem BoostedFirst.enter {s : NetScheduler} {t : TaskId} {k : NetTask}
    (h : BoostedFirst s) (ha : Absent s t) : BoostedFirst (s.enter t k) :=
  (h.setTask (ha.nowhere.not_mem_queue (by simp))).congr rfl rfl fun _ _ => rfl

theorem BoostedFirst.free {s : NetScheduler} {t : TaskId}
    (h : BoostedFirst s) : BoostedFirst (s.free t) := by
  refine h.shrink (List.Sublist.refl _) (List.Sublist.refl _) fun u _ k hk => ?_
  by_cases hut : u = t
  · subst hut
    simp [NetScheduler.free] at hk
  · simp only [NetScheduler.free, Function.update_of_ne hut] at hk
    exact ⟨k, hk, rfl⟩

/-- A preemption of a queued task breaks the order exactly if a regular task
stands before it. -/
theorem BoostedFirst.taskPreempted_iff {cfg : Config} {s s' : NetScheduler}
    {t : TaskId} {msg : TaskOffCpuMsg} (h : BoostedFirst s) (hp : Placed s ∅)
    (hperf : perform cfg (.taskPreempted t msg) s = .ok ((), s')) :
    BoostedFirst s' ↔ orderKept s (.taskPreempted t msg) := by
  obtain ⟨k, k', hr, hq', -, hpre⟩ := taskPreempted_reply hperf
  by_cases hq : k.runState = .queued
  · have hb := NetTask.boosted_of_preempted hpre
    rw [boostedFirst_inPlace_iff h hr hq hq']
    constructor
    · intro hfits k₀ hk₀ _ u l hut hu hl
      exact (hfits u l hut hl).1 hu hb
    · intro hkept u l hut hl
      exact ⟨fun hu _ => hkept k hr.live hq u l hut hu hl, fun _ _ => hb⟩
  · refine iff_of_true (h.reply hp hr fun hk => absurd hk hq) ?_
    intro k₀ hk₀ hq₀
    cases hr.live.symm.trans hk₀
    exact absurd hq₀ hq

/-- A yield of a queued task breaks the order exactly if it takes the task's
boost away and a boosted task stands behind it. -/
theorem BoostedFirst.taskYield_iff {cfg : Config} {s s' : NetScheduler}
    {t : TaskId} {msg : TaskOffCpuMsg} (h : BoostedFirst s) (hp : Placed s ∅)
    (hperf : perform cfg (.taskYield t msg) s = .ok ((), s')) :
    BoostedFirst s' ↔ orderKept s (.taskYield t msg) := by
  obtain ⟨k, k', hr, hst, hboost, hpre⟩ := taskYield_reply hperf
  by_cases hin : k.runState = .queued ∧ k.preempted = false
  · obtain ⟨hq, hk⟩ := hin
    have hb := NetTask.not_boosted hboost (hpre.trans hk)
    rw [boostedFirst_inPlace_iff h hr hq (hst.mpr hq)]
    constructor
    · intro hfits k₀ hk₀ _ _ u l hut hu hl
      by_contra hlb
      have htrue := (hfits u l hut hl).2 hu (by simpa using hlb)
      rw [hb] at htrue
      cases htrue
    · intro hkept u l hut hl
      refine ⟨fun _ hk'b => ?_, fun hu hlb => ?_⟩
      · rw [hb] at hk'b
        cases hk'b
      · rw [hkept k hr.live hq hk u l hut hu hl] at hlb
        cases hlb
  · have hsame : k.runState = .queued → k'.runState = .queued →
        k'.boosted = k.boosted := by
      intro hq _
      have hk : k.preempted = true := by
        by_contra hf
        exact hin ⟨hq, by simpa using hf⟩
      rw [NetTask.boosted_of_preempted hk,
        NetTask.boosted_of_preempted (hpre.trans hk)]
    refine iff_of_true (h.reply hp hr hsame) ?_
    intro k₀ hk₀ hq₀ hpre₀
    cases hr.live.symm.trans hk₀
    exact absurd ⟨hq₀, hpre₀⟩ hin

theorem BoostedFirst.step_iff {cfg : Config} {s s' : NetScheduler} {op : Op}
    (h : BoostedFirst s) (hsound : Sound s)
    (hperf : perform cfg op s = .ok ((), s')) :
    BoostedFirst s' ↔ orderKept s op := by
  have hp := hsound.placed
  cases op with
  | taskPreempted t msg => exact h.taskPreempted_iff hp hperf
  | taskYield t msg => exact h.taskYield_iff hp hperf
  | taskRunnable t msg =>
      obtain ⟨k, k', hr, hb, -⟩ := taskRunnable_reply hperf
      refine iff_of_true (h.reply hp hr fun hq => ?_) trivial
      cases hq.symm.trans hb
  | taskBlocked t msg =>
      obtain ⟨k, k', hr, hb, -⟩ := taskBlocked_reply hperf
      refine iff_of_true (h.reply hp hr fun _ hq => ?_) trivial
      cases hq.symm.trans hb
  | taskSwitchto t msg =>
      obtain ⟨k, k', hr, hb, -⟩ := taskSwitchto_reply hperf
      refine iff_of_true (h.reply hp hr fun _ hq => ?_) trivial
      cases hq.symm.trans hb
  | globalSchedule env =>
      refine iff_of_true ?_ trivial
      exact globalSchedule_invariant (fun s s' hp h => h.turn hp) hp h hperf
  | pickNextGlobalCpu env =>
      refine iff_of_true ?_ trivial
      rcases pickNextGlobalCpu_cases hp hperf with rfl | ⟨c, s₁, s₂, hm⟩
      · exact h
      · exact h.migrated hp hm
  | taskNew t p msg =>
      refine iff_of_true ?_ trivial
      cases taskNew_step hperf with
      | moves hop _ => exact absurd rfl (hop t p msg)
      | new hfresh _ => exact h.enter (hsound.unborn t hfresh)
      | newRunnable hfresh _ =>
          exact (h.enter (hsound.unborn t hfresh)).push
            (setTask_task_self s t _)
            rfl
  | taskDead t n =>
      refine iff_of_true ?_ trivial
      obtain ⟨k, -, -, rfl⟩ := taskDead_ok hperf
      exact h.free
  | taskDeparted t msg =>
      refine iff_of_true ?_ trivial
      obtain ⟨k, -, hd⟩ := taskDeparted_ok hperf
      rcases hd with rfl | ⟨c, rfl⟩
      · exact h.free
      · have hsw : BoostedFirst (s.setInSwitchto c false) :=
          h.congr rfl rfl fun _ _ => rfl
        exact hsw.free

/-! ## All runs -/

/-- The states of the runs whose messages keep the order. -/
def OrderKeptReachable (cfg : Config) : NetScheduler → Prop :=
  (netScheduler cfg).Reach orderKept

theorem OrderKeptReachable.sound {cfg : Config} {s : NetScheduler}
    (h : OrderKeptReachable cfg s) : Sound s :=
  sound_of_reachable (Machine.Reach.mono (fun _ _ _ => trivial) h)

theorem boostedFirst_of_orderKept {cfg : Config} {s : NetScheduler}
    (h : OrderKeptReachable cfg s) : BoostedFirst s := by
  refine Machine.Reach.invariant (I := BoostedFirst) ?_ ?_ h
  · rintro s ⟨globalCpu, cpuhist, st, hcon⟩
    obtain ⟨c, -, rfl⟩ := construct_ok hcon
    exact ⟨List.Pairwise.nil, List.Pairwise.nil⟩
  · intro s op s' hr hord hok hperf
    exact (hord.step_iff (OrderKeptReachable.sound hr) hperf).mpr hok

/-- In the runs in which no message boosts a queued task behind a regular one
and none takes the boost from a queued task before a boosted one, the boosted
tasks come first in both queues; and the first message of either kind puts
the queue out of order. -/
theorem boostedFirst_iff_orderKept {cfg : Config} {s : NetScheduler}
    (h : OrderKeptReachable cfg s) :
    BoostedFirst s ∧ ∀ op s', perform cfg op s = .ok ((), s') →
      (BoostedFirst s' ↔ orderKept s op) := by
  have hord := boostedFirst_of_orderKept h
  exact ⟨hord, fun op s' hperf => hord.step_iff h.sound hperf⟩

/-- A task that was preempted on its CPU is queued before one that waits. -/
theorem boostedFirst_iff_orderKept_preempted :
    ∃ s, OrderKeptReachable twoCpus s ∧ s.runQueue = [0, 1] ∧
      BoostedFirst s := by
  have hrun : ∃ s₀ s k, performAll twoCpus
      [newTask 0 true true "EngineThread/0", .globalSchedule calmRound,
        .globalSchedule calmRound, newTask 1 true true "EngineThread/1"]
      twoCpusStart = .ok ((), s₀) ∧ s₀.task 0 = .live k ∧
      k.runState = .onCpu ∧
      perform twoCpus (.taskPreempted 0 offCpuMsg) s₀ = .ok ((), s) ∧
      s.runQueue = [0, 1] := ⟨_, _, _, rfl, rfl, rfl, rfl, rfl⟩
  obtain ⟨s₀, s, k, hrun, hk, hon, hperf, hq⟩ := hrun
  have hreach₀ : OrderKeptReachable twoCpus s₀ := by
    refine reach_performAll (.init twoCpusStart_init) ?_ hrun
    simp [newTask, orderKept]
  have hok : orderKept s₀ (.taskPreempted 0 offCpuMsg) := by
    intro k' hk' hq'
    cases hk.symm.trans hk'
    cases hon.symm.trans hq'
  have hreach : OrderKeptReachable twoCpus s := .step hreach₀ hok hperf
  exact ⟨s, hreach, hq, (boostedFirst_iff_orderKept hreach).1⟩

/-- A message about a queued task reverses the order either way: a preempted
task is left behind a regular one, and a task that lost its boost before one
that has kept it. -/
theorem queued_message_breaks_order :
    (∃ s k l, Reachable twoCpus s ∧ s.runQueue = [0, 1] ∧
      s.task 0 = .live k ∧ k.boosted = false ∧
      s.task 1 = .live l ∧ l.boosted = true) ∧
    ∃ s k l, Reachable twoCpus s ∧ s.runQueue = [1, 0] ∧
      s.task 1 = .live k ∧ k.boosted = false ∧
      s.task 0 = .live l ∧ l.boosted = true := by
  have hpreempted : ∃ s k l, performAll twoCpus
      [newTask 0 true true "EngineThread/0",
        newTask 1 true true "EngineThread/1", .taskPreempted 1 offCpuMsg]
      twoCpusStart = .ok ((), s) ∧ s.runQueue = [0, 1] ∧
      s.task 0 = .live k ∧ k.boosted = false ∧
      s.task 1 = .live l ∧ l.boosted = true :=
    ⟨_, _, _, rfl, rfl, rfl, rfl, rfl, rfl⟩
  have hyield : ∃ s k l, performAll twoCpus
      [newTask 0 true false "EngineThread/0",
        newTask 1 true false "EngineThread/1",
        .taskRunnable 0 ⟨2, false⟩, .taskRunnable 1 ⟨2, false⟩,
        .taskYield 1 { offCpuMsg with seqnum := 3 }]
      twoCpusStart = .ok ((), s) ∧ s.runQueue = [1, 0] ∧
      s.task 1 = .live k ∧ k.boosted = false ∧
      s.task 0 = .live l ∧ l.boosted = true :=
    ⟨_, _, _, rfl, rfl, rfl, rfl, rfl, rfl⟩
  obtain ⟨s, k, l, hrun, hs⟩ := hpreempted
  obtain ⟨s', k', l', hrun', hs'⟩ := hyield
  exact ⟨⟨s, k, l, reach_performAll (.init twoCpusStart_init)
      (fun _ _ _ => trivial) hrun, hs⟩,
    ⟨s', k', l', reach_performAll (.init twoCpusStart_init)
      (fun _ _ _ => trivial) hrun', hs'⟩⟩

end GhostDataplane.Agent
