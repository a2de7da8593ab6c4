import GhostDataplane.Proofs.Placement

/-!
# The queue class and the priority

`Enqueue` reads `high_priority` once and the task stays in the queue it
picked, so the two agree as long as nobody writes the field afterwards. One
function does: `TaskNew` enqueues a runnable task first and adjusts its
priority last, and until then the field holds whatever the memory of a fresh
`NetTask` held. A run in which that value is right, or the new tasks are not
runnable, keeps the classes apart; any other `TaskNew` mixes them at once.
-/

namespace GhostDataplane.Agent

open GhostDataplane.Lib

/-- Every queued task is in the queue of its priority. -/
structure QueueClass (s : NetScheduler) : Prop where
  high : ∀ t k, t ∈ s.runQueue → s.task t = .live k → k.highPriority = true
  low : ∀ t k, t ∈ s.runQueueLowPriority → s.task t = .live k →
    k.highPriority = false

/-- A task that `TaskNew` enqueues happens to have the right priority in the
field that nobody has written yet. -/
def priorityKnown (_ : NetScheduler) : Op → Prop
  | .taskNew _ uninitPriority msg =>
      msg.runnable = true →
        uninitPriority = strContains msg.name "EngineThread"
  | _ => True

/-! ## One move -/

/-- Nothing new in the queues, and no priority written. -/
theorem QueueClass.shrink {s s' : NetScheduler} (h : QueueClass s)
    (hq : ∀ t ∈ s'.runQueue, t ∈ s.runQueue)
    (hl : ∀ t ∈ s'.runQueueLowPriority, t ∈ s.runQueueLowPriority)
    (hslot : ∀ t k', s'.task t = .live k' →
      ∃ k, s.task t = .live k ∧ k'.fixed = k.fixed) : QueueClass s' := by
  constructor
  · intro t k' ht hk'
    obtain ⟨k, hk, hfix⟩ := hslot t k' hk'
    rw [NetTask.highPriority_of_fixed hfix]
    exact h.high t k (hq t ht) hk
  · intro t k' ht hk'
    obtain ⟨k, hk, hfix⟩ := hslot t k' hk'
    rw [NetTask.highPriority_of_fixed hfix]
    exact h.low t k (hl t ht) hk

/-- Entering the queue of the priority on record. -/
theorem QueueClass.push {s : NetScheduler} {t : TaskId} {k l : NetTask}
    (h : QueueClass s) (hk : s.task t = .live k)
    (hl : l.highPriority = k.highPriority) : QueueClass (s.push t l) := by
  constructor
  · intro u ku hu hku
    simp only [NetScheduler.push] at hu hku
    split at hu
    · next hhigh =>
        rcases mem_pushEnd.mp hu with rfl | hu
        · cases hk.symm.trans hku
          exact hl ▸ hhigh
        · exact h.high u ku hu hku
    · exact h.high u ku hu hku
  · intro u ku hu hku
    simp only [NetScheduler.push] at hu hku
    split at hu
    · exact h.low u ku hu hku
    · next hlow =>
        rcases mem_pushEnd.mp hu with rfl | hu
        · cases hk.symm.trans hku
          rw [← hl]
          simpa using hlow
        · exact h.low u ku hu hku

theorem Move.slot_back {s s' : NetScheduler} {H H' : Set TaskId}
    (hm : Move s H s' H') (t : TaskId) (k' : NetTask)
    (hk' : s'.task t = .live k') :
    ∃ k, s.task t = .live k ∧ k'.fixed = k.fixed := by
  rcases hm.slot t with h | ⟨k, l, hk, hl, hfix⟩
  · exact ⟨k', h ▸ hk', rfl⟩
  · cases hl.symm.trans hk'
    exact ⟨k, hk, hfix⟩

theorem QueueClass.move {s s' : NetScheduler} {H H' : Set TaskId}
    (h : QueueClass s) (hm : Move s H s' H') : QueueClass s' := by
  have hback := hm.slot_back
  cases hm with
  | @enqueue _ t k hk _ =>
      have hset : QueueClass (s.setTask t { k with runState := .queued }) :=
        h.shrink (fun _ hu => hu) (fun _ hu => hu) hback
      exact hset.push (setTask_task_self s t _) rfl
  | dequeue hk hd =>
      rcases dequeue_some hd with ⟨rest, hq, rfl⟩ | ⟨hq, rest, hl, rfl⟩
      · exact h.shrink (fun u hu => by rw [hq]; exact List.mem_cons_of_mem _ hu)
          (fun _ hu => hu) hback
      · exact h.shrink (fun _ hu => hu)
          (fun u hu => by rw [hl]; exact List.mem_cons_of_mem _ hu) hback
  | unqueue hk hmem =>
      unfold NetScheduler.unqueue at hback ⊢
      split
      · next hq =>
          rw [if_pos hq] at hback
          exact h.shrink (fun _ hu => List.mem_of_mem_erase hu)
            (fun _ hu => hu) hback
      · next hq =>
          rw [if_neg hq] at hback
          exact h.shrink (fun _ hu => hu)
            (fun _ hu => List.mem_of_mem_erase hu) hback
  | _ => exact h.shrink (fun _ hu => hu) (fun _ hu => hu) hback

theorem QueueClass.moves {s s' : NetScheduler} {H H' : Set TaskId}
    (h : QueueClass s) (hm : Moves s H s' H') : QueueClass s' :=
  Moves.preserve (P := fun s _ => QueueClass s) (fun _ _ _ _ h hm => h.move hm)
    hm h

/-! ## One step -/

/-- A new record for a pointer that is in no queue. -/
theorem QueueClass.enter {s : NetScheduler} {t : TaskId} {k : NetTask}
    (h : QueueClass s) (ha : Absent s t) : QueueClass (s.enter t k) := by
  have hun := at_nowhere_iff.mp ha.nowhere
  have hold : ∀ {u ku}, u ≠ t → (s.enter t k).task u = .live ku →
      s.task u = .live ku := fun hut hku => (setTask_task_ne hut).symm.trans hku
  constructor
  · intro u ku hu hku
    have hut : u ≠ t := fun he => hun.runQueue (he ▸ hu)
    exact h.high u ku hu (hold hut hku)
  · intro u ku hu hku
    have hut : u ≠ t := fun he => hun.lowPriority (he ▸ hu)
    exact h.low u ku hu (hold hut hku)

theorem QueueClass.free {s : NetScheduler} {t : TaskId} (h : QueueClass s) :
    QueueClass (s.free t) := by
  refine h.shrink (fun _ hu => hu) (fun _ hu => hu) fun u k hk => ⟨k, ?_, rfl⟩
  by_cases hut : u = t
  · subst hut
    simp [NetScheduler.free] at hk
  · simpa [NetScheduler.free, hut] using hk

/-- After a runnable task was taken in the classes agree only if the field
had the right value. -/
theorem QueueClass.of_push {s : NetScheduler} {t : TaskId} {k l : NetTask}
    (h : QueueClass ((s.enter t k).push t l)) :
    l.highPriority = k.highPriority := by
  have hk : ((s.enter t k).push t l).task t = .live k := setTask_task_self s t k
  cases hl : l.highPriority with
  | true =>
      refine (h.high t k ?_ hk).symm
      simp only [NetScheduler.push, hl, if_true]
      exact mem_pushEnd.mpr (Or.inl rfl)
  | false =>
      refine (h.low t k ?_ hk).symm
      simp only [NetScheduler.push, hl, Bool.false_eq_true, if_false]
      exact mem_pushEnd.mpr (Or.inl rfl)

theorem QueueClass.step_iff {cfg : Config} {s s' : NetScheduler} {op : Op}
    (h : QueueClass s) (hsound : Sound s)
    (hperf : perform cfg op s = .ok ((), s')) :
    QueueClass s' ↔ priorityKnown s op := by
  cases perform_step hsound.placed hperf with
  | moves hop hm =>
      refine ⟨fun _ => ?_, fun _ => h.moves hm⟩
      cases op with
      | taskNew t p msg => exact absurd rfl (hop t p msg)
      | _ => trivial
  | new hfresh hrun =>
      refine ⟨fun _ hr => ?_, fun _ => h.enter (hsound.unborn _ hfresh)⟩
      rw [hrun] at hr
      cases hr
  | newRunnable hfresh hrun =>
      refine ⟨fun hc _ => hc.of_push, fun hknown => ?_⟩
      exact (h.enter (hsound.unborn _ hfresh)).push (setTask_task_self s _ _)
        (hknown hrun)
  | dead hk hb => exact ⟨fun _ => trivial, fun _ => h.free⟩
  | departed hk hd =>
      refine ⟨fun _ => trivial, fun _ => ?_⟩
      rcases hd with rfl | ⟨c, rfl⟩
      · exact h.free
      · exact QueueClass.free (h.move (Move.switchto (H := ∅)))

/-! ## All runs -/

/-- The states of the runs in which every runnable new task has the right
priority before it is adjusted. -/
def KnownReachable (cfg : Config) : NetScheduler → Prop :=
  (netScheduler cfg).Reach priorityKnown

theorem KnownReachable.sound {cfg : Config} {s : NetScheduler}
    (h : KnownReachable cfg s) : Sound s :=
  sound_of_reachable (Machine.Reach.mono (fun _ _ _ => trivial) h)

theorem queueClass_of_known {cfg : Config} {s : NetScheduler}
    (h : KnownReachable cfg s) : QueueClass s := by
  refine Machine.Reach.invariant (I := QueueClass) ?_ ?_ h
  · rintro s ⟨globalCpu, cpuhist, st, hcon⟩
    obtain ⟨c, -, rfl⟩ := construct_ok hcon
    exact ⟨(fun t k ht => by cases ht), (fun t k ht => by cases ht)⟩
  · intro s op s' hr hclass hok hperf
    exact (hclass.step_iff (KnownReachable.sound hr) hperf).mpr hok

/-- `Dequeue` serves the low-priority queue only when the other is empty. -/
theorem dequeue_highest {s s₁ : NetScheduler} {t u : TaskId} {k ku : NetTask}
    (h : QueueClass s) (hd : dequeue s = .ok (some t, s₁))
    (hk : s.task t = .live k) (hlow : k.highPriority = false)
    (hu : u ∈ s.runQueue ++ s.runQueueLowPriority)
    (hku : s.task u = .live ku) : ku.highPriority = false := by
  rcases dequeue_some hd with ⟨rest, hq, -⟩ | ⟨hq, -⟩
  · have hhigh := h.high t k (by simp [hq]) hk
    rw [hlow] at hhigh
    cases hhigh
  · rw [hq, List.nil_append] at hu
    exact h.low u ku hu hku

/-- In the runs whose runnable new tasks have the right priority from the
start, the queue of every queued task is that of its priority and a task of
low priority is dequeued only when no other is queued; and the first
`TaskNew` that breaks the promise breaks the classes. -/
theorem queueClass_iff_priorityKnown {cfg : Config} {s : NetScheduler}
    (h : KnownReachable cfg s) :
    QueueClass s ∧
    (∀ t s₁ k, dequeue s = .ok (some t, s₁) → s.task t = .live k →
      k.highPriority = false →
      ∀ u ku, u ∈ s.runQueue ++ s.runQueueLowPriority →
        s.task u = .live ku → ku.highPriority = false) ∧
    ∀ op s', perform cfg op s = .ok ((), s') →
      (QueueClass s' ↔ priorityKnown s op) := by
  have hclass := queueClass_of_known h
  refine ⟨hclass, fun t s₁ k hd hk hlow u ku hu hku => ?_,
    fun op s' hperf => ?_⟩
  · exact dequeue_highest hclass hd hk hlow hu hku
  · exact hclass.step_iff h.sound hperf

/-- One task of each priority, both queued. -/
theorem queueClass_iff_priorityKnown_two :
    ∃ s, KnownReachable twoCpus s ∧ s.runQueue = [0] ∧
      s.runQueueLowPriority = [1] ∧ QueueClass s := by
  have hrun : ∃ s, performAll twoCpus
      [newTask 0 true true "EngineThread/0", newTask 1 false true "app"]
      twoCpusStart = .ok ((), s) ∧ s.runQueue = [0] ∧
      s.runQueueLowPriority = [1] := ⟨_, rfl, rfl, rfl⟩
  obtain ⟨s, hrun, hq, hl⟩ := hrun
  have hreach : KnownReachable twoCpus s := by
    refine reach_performAll (.init twoCpusStart_init) ?_ hrun
    simp only [List.mem_cons, List.not_mem_nil, or_false]
    rintro op (rfl | rfl) s
    · exact fun _ => by decide
    · exact fun _ => by decide
  exact ⟨s, hreach, hq, hl, (queueClass_iff_priorityKnown hreach).1⟩

/-- A new engine thread whose `high_priority` happened to be false is queued
with the low-priority tasks, behind a task of low priority. -/
theorem engineThread_in_lowPriority_queue :
    ∃ s k, Reachable twoCpus s ∧ s.runQueue = [] ∧
      s.runQueueLowPriority = [0, 1] ∧ s.task 1 = .live k ∧
      k.highPriority = true ∧ ¬ QueueClass s ∧
      ∃ s₁, dequeue s = .ok (some 0, s₁) := by
  have hrun : ∃ s s₁ k, performAll twoCpus
      [newTask 0 false true "app", newTask 1 false true "EngineThread/0"]
      twoCpusStart = .ok ((), s) ∧ s.runQueue = [] ∧
      s.runQueueLowPriority = [0, 1] ∧ s.task 1 = .live k ∧
      k.highPriority = true ∧ dequeue s = .ok (some 0, s₁) :=
    ⟨_, _, _, rfl, rfl, rfl, rfl, by decide, rfl⟩
  obtain ⟨s, s₁, k, hrun, hq, hl, hk, hhigh, hd⟩ := hrun
  have hreach : Reachable twoCpus s :=
    reach_performAll (.init twoCpusStart_init) (fun _ _ _ => trivial) hrun
  refine ⟨s, k, hreach, hq, hl, hk, hhigh, fun hc => ?_, s₁, hd⟩
  have hlow := hc.low 1 k (by simp [hl]) hk
  rw [hhigh] at hlow
  cases hlow

end GhostDataplane.Agent
