import GhostDataplane.Proofs.Places

/-!
# The moves an operation is made of

Every operation of the scheduler is a sequence of small moves: a task is
taken out of the place it is in, held for a few lines, and put into another;
a record is touched in a field that does not say where its task is; a request
is opened, polled or reaped. `Move s H s' H'` lists them with the exact
tables they leave and the tasks `H` held in hand, and `Moves` chains them.
The operations are decomposed into moves once; what a run preserves is then a
case analysis of this list, one short case for each move.

The list says nothing about which move may follow which. That is the
operations' business, and where an argument needs it, it goes back to them.
-/

namespace GhostDataplane.Agent

namespace NetScheduler

/-- Take a task out of the run queue it is in, as `RemoveFromRunqueue` does. -/
def unqueue (s : NetScheduler) (t : TaskId) : NetScheduler :=
  if t ∈ s.runQueue then { s with runQueue := s.runQueue.erase t }
  else { s with runQueueLowPriority := s.runQueueLowPriority.erase t }

/-- The bookkeeping of a transaction found committed and reaped. -/
def reap (s : NetScheduler) (c : CpuId) (t : TaskId) (st : TxnState) :
    NetScheduler :=
  { s.setNext c none with
    req := Function.update s.req c (.committed st)
    txnSuccess := if st = .complete then s.txnSuccess + 1 else s.txnSuccess
    txnFailUnavail :=
      if st = .cpuUnavail then s.txnFailUnavail + 1 else s.txnFailUnavail
    txnFailOther := if st = .other then s.txnFailOther + 1 else s.txnFailOther
    log := s.log ++ [.reaped c t st] }

/-- The tables once a batched transaction for `t` on `c` is open, but for the
task's own record. -/
def openBatched (s : NetScheduler) (c : CpuId) (t : TaskId) (k : NetTask) :
    NetScheduler :=
  { s.setNext c (some t) with
    req := Function.update s.req c .inFlight
    txnTotal := s.txnTotal + 1
    log := s.log ++ [.opened ⟨c, t, true, s.cpuStates c, s.req c, k⟩] }

/-- The tables after a synchronous transaction for `t` on `c`, whatever came
of it. -/
def openSync (s : NetScheduler) (c : CpuId) (t : TaskId) (k : NetTask)
    (st : TxnState) : NetScheduler :=
  { s with
    req := Function.update s.req c (.committed st)
    log := s.log ++ [.opened ⟨c, t, false, s.cpuStates c, s.req c, k⟩] }

/-- The tables after an unschedule commit on `c`. -/
def openUnschedule (s : NetScheduler) (c : CpuId) (prev : TaskId)
    (st : TxnState) : NetScheduler :=
  { s with
    req := Function.update s.req c (.committed st)
    log := s.log ++ [.unscheduled c prev (s.req c)] }

end NetScheduler

/-- What no operation on a task writes once `TaskNew` has. -/
def NetTask.fixed (k : NetTask) : Bool × CpuList :=
  (k.highPriority, k.allowedCpulist)

theorem NetTask.highPriority_of_fixed {k k' : NetTask}
    (h : k'.fixed = k.fixed) : k'.highPriority = k.highPriority :=
  congrArg Prod.fst h

theorem NetTask.allowedCpulist_of_fixed {k k' : NetTask}
    (h : k'.fixed = k.fixed) : k'.allowedCpulist = k.allowedCpulist :=
  congrArg Prod.snd h

/-- One move, with the tasks held in hand before and after. -/
inductive Move : NetScheduler → Set TaskId → NetScheduler →
    Set TaskId → Prop where
  | touch {s : NetScheduler} {H : Set TaskId} {t : TaskId} {k k' : NetTask}
      (hk : s.task t = .live k)
      (hp : t ∈ H ∨ k'.runState = k.runState ∧ k'.cpu = k.cpu)
      (hhi : k'.fixed = k.fixed) :
      Move s H (s.setTask t k') H
  | enqueue {s : NetScheduler} {H : Set TaskId} {t : TaskId} {k : NetTask}
      (hk : s.task t = .live k) (ht : t ∈ H) :
      Move s H ((s.setTask t { k with runState := .queued }).push t k) (H \ {t})
  | yield {s : NetScheduler} {H : Set TaskId} {t : TaskId} {k : NetTask}
      (hk : s.task t = .live k) (ht : t ∈ H) :
      Move s H
        { s.setTask t { k with runState := .yielding } with
          yieldingTasks := s.yieldingTasks ++ [t] } (H \ {t})
  | block {s : NetScheduler} {H : Set TaskId} {t : TaskId} {k : NetTask}
      (hk : s.task t = .live k) (ht : t ∈ H) :
      Move s H (s.setTask t { k with runState := .blocked }) (H \ {t})
  | wake {s : NetScheduler} {H : Set TaskId} {t : TaskId} {k : NetTask}
      (hk : s.task t = .live k) (hb : k.runState = .blocked) (ht : t ∉ H) :
      Move s H s (insert t H)
  | dequeue {s s' : NetScheduler} {H : Set TaskId} {t : TaskId} {k : NetTask}
      (hk : s.task t = .live k) (hd : dequeue s = .ok (some t, s')) :
      Move s H s' (insert t H)
  | unqueue {s : NetScheduler} {H : Set TaskId} {t : TaskId} {k : NetTask}
      (hk : s.task t = .live k)
      (hmem : t ∈ s.runQueue ++ s.runQueueLowPriority) :
      Move s H (s.unqueue t) (insert t H)
  | unyield {s : NetScheduler} {H : Set TaskId} {t : TaskId} {k : NetTask}
      {ts : List TaskId} (hk : s.task t = .live k)
      (hy : s.yieldingTasks = t :: ts) :
      Move s H { s with yieldingTasks := ts } (insert t H)
  | vacate {s : NetScheduler} {H : Set TaskId} {t : TaskId} {k : NetTask}
      {c : CpuId} (hk : s.task t = .live k)
      (hc : (s.cpuStates c).current = some t) :
      Move s H (s.setCurrent c none) (insert t H)
  | reap {s : NetScheduler} {H : Set TaskId} {t : TaskId} {k : NetTask}
      {c : CpuId} {st : TxnState} (hk : s.task t = .live k)
      (hn : (s.cpuStates c).next = some t)
      (hr : s.req c = .inFlight ∨ s.req c = .committed st) :
      Move s H (s.reap c t st) (insert t H)
  | run {s : NetScheduler} {H : Set TaskId} {t : TaskId} {k k' : NetTask}
      {c : CpuId} (hk : s.task t = .live k) (ht : t ∈ H)
      (hc : (s.cpuStates c).current = none)
      (hn : (s.cpuStates c).next = none) (hr : k'.runState = .onCpu)
      (hcpu : k'.cpu = some c) (hhi : k'.fixed = k.fixed) :
      Move s H ((s.setCurrent c (some t)).setTask t k') (H \ {t})
  | openBatched {s : NetScheduler} {H : Set TaskId} {t : TaskId}
      {k k' : NetTask} {c : CpuId} (hk : s.task t = .live k) (ht : t ∈ H)
      (hc : (s.cpuStates c).current = none)
      (hn : (s.cpuStates c).next = none) (hr : k'.runState = .pending)
      (hcpu : k'.cpu = some c) (hhi : k'.fixed = k.fixed) :
      Move s H ((s.openBatched c t k).setTask t k') (H \ {t})
  | openSync {s : NetScheduler} {H : Set TaskId} {t : TaskId} {k : NetTask}
      {c : CpuId} {st : TxnState} (hn : (s.cpuStates c).next = none) :
      Move s H (s.openSync c t k st) H
  | openUnschedule {s : NetScheduler} {H : Set TaskId} {t : TaskId}
      {c : CpuId} {st : TxnState} (hn : (s.cpuStates c).next = none) :
      Move s H (s.openUnschedule c t st) H
  | poll {s : NetScheduler} {H : Set TaskId} {c : CpuId} {st : TxnState}
      (hn : (s.cpuStates c).next = none) (hr : s.req c = .inFlight) :
      Move s H (s.setReq c (.committed st)) H
  | switchto {s : NetScheduler} {H : Set TaskId} {c : CpuId} {b : Bool} :
      Move s H (s.setInSwitchto c b) H
  | handOver {s : NetScheduler} {H : Set TaskId} {c : CpuId}
      (hc : (s.cpuStates c).current = none)
      (hn : (s.cpuStates c).next = none) : Move s H (s.handOver c) H
  | countTxn {s : NetScheduler} {H : Set TaskId} :
      Move s H { s with txnTotal := s.txnTotal + 1 } H
  | submit {s : NetScheduler} {H : Set TaskId} {cpus : CpuList} :
      Move s H (s.note (.submitted cpus)) H
  | bump {s : NetScheduler} {H : Set TaskId} {unavail : Nat} :
      Move s H (bumpCpuhist unavail s) H

/-- A sequence of moves. -/
inductive Moves : NetScheduler → Set TaskId → NetScheduler →
    Set TaskId → Prop where
  | refl {s : NetScheduler} {H : Set TaskId} : Moves s H s H
  | head {s s₁ s' : NetScheduler} {H H₁ H' : Set TaskId} (hm : Move s H s₁ H₁)
      (hrest : Moves s₁ H₁ s' H') : Moves s H s' H'

theorem Moves.trans {s s₁ s' : NetScheduler} {H H₁ H' : Set TaskId}
    (h : Moves s H s₁ H₁) (h' : Moves s₁ H₁ s' H') : Moves s H s' H' := by
  induction h with
  | refl => exact h'
  | head hm _ ih => exact .head hm (ih h')

theorem Move.moves {s s' : NetScheduler} {H H' : Set TaskId}
    (h : Move s H s' H') : Moves s H s' H' := .head h .refl

/-- What every move preserves, a sequence of moves preserves. -/
theorem Moves.preserve {P : NetScheduler → Set TaskId → Prop}
    (hmove : ∀ s H s' H', P s H → Move s H s' H' → P s' H')
    {s s' : NetScheduler} {H H' : Set TaskId} (h : Moves s H s' H')
    (hp : P s H) : P s' H' := by
  induction h with
  | refl => exact hp
  | head hm _ ih => exact ih (hmove _ _ _ _ hp hm)

/-! ## Moves keep every task in its place -/

/-- The shape of almost every case: one task is relocated, and the tables say
the same about all the others. -/
theorem Placed.relocate {s s' : NetScheduler} {H H' : Set TaskId} {t : TaskId}
    {k' : NetTask} (h : Placed s H) (hk' : s'.task t = .live k')
    (htask : ∀ u, u ≠ t → s'.task u = s.task u)
    (hH : ∀ u, u ≠ t → (u ∈ H' ↔ u ∈ H))
    (hothers : ∀ u p, u ≠ t → At s u p → At s' u p)
    (hhand : t ∈ H' → At s' t .nowhere)
    (hplace : t ∉ H' → ∃ p, k'.place = some p ∧ At s' t p)
    (hexcl : ∀ c, (s'.cpuStates c).current = none ∨
      (s'.cpuStates c).next = none) : Placed s' H' := by
  refine ⟨fun u k hk hu => ?_, fun u hu => ?_, hexcl⟩
  · by_cases hut : u = t
    · subst hut
      rw [hk'] at hk
      cases hk
      exact hplace hu
    · rw [htask u hut] at hk
      obtain ⟨p, hp, hat⟩ :=
        h.live u k hk (fun hmem => hu ((hH u hut).mpr hmem))
      exact ⟨p, hp, hothers u p hut hat⟩
  · by_cases hut : u = t
    · subst hut
      exact ⟨hhand hu, k', hk'⟩
    · obtain ⟨hat, k, hk⟩ := h.hand u ((hH u hut).mp hu)
      exact ⟨hothers u _ hut hat, k, (htask u hut).trans hk⟩

/-- A change that no place depends on. -/
theorem Placed.quiet {s s' : NetScheduler} {H : Set TaskId} (h : Placed s H)
    (htask : s'.task = s.task) (hq : s'.runQueue = s.runQueue)
    (hl : s'.runQueueLowPriority = s.runQueueLowPriority)
    (hy : s'.yieldingTasks = s.yieldingTasks)
    (hc : ∀ c, (s'.cpuStates c).current = (s.cpuStates c).current ∧
      (s'.cpuStates c).next = (s.cpuStates c).next) : Placed s' H := by
  refine ⟨fun u k hk hu => ?_, fun u hu => ?_, fun c => ?_⟩
  · rw [htask] at hk
    obtain ⟨p, hp, hat⟩ := h.live u k hk hu
    exact ⟨p, hp, hat.congr hq hl hy hc⟩
  · obtain ⟨hat, k, hk⟩ := h.hand u hu
    exact ⟨hat.congr hq hl hy hc, k, by rw [htask]; exact hk⟩
  · rw [(hc c).1, (hc c).2]
    exact h.exclusive c

theorem diff_other {H : Set TaskId} {t : TaskId} :
    ∀ u, u ≠ t → (u ∈ H \ {t} ↔ u ∈ H) := by
  intro u hu
  simp [hu]

theorem insert_other {H : Set TaskId} {t : TaskId} :
    ∀ u, u ≠ t → (u ∈ insert t H ↔ u ∈ H) := by
  intro u hu
  simp [hu]

theorem not_mem_diff {H : Set TaskId} {t : TaskId} : t ∉ H \ {t} := by simp

/-- Writing a CPU's record with at most one of its two pointers set keeps the
pointers exclusive everywhere. -/
theorem Placed.exclusive_setCpu {s : NetScheduler} {H : Set TaskId} {c : CpuId}
    {cs : CpuState} (h : Placed s H)
    (hcs : cs.current = none ∨ cs.next = none) :
    ∀ d, ((s.setCpu c cs).cpuStates d).current = none ∨
      ((s.setCpu c cs).cpuStates d).next = none := by
  intro d
  by_cases hd : d = c
  · subst hd
    rw [setCpu_self]
    exact hcs
  · rw [setCpu_ne hd]
    exact h.exclusive d

theorem Placed.touch {s : NetScheduler} {H : Set TaskId} {t : TaskId}
    {k k' : NetTask} (h : Placed s H) (hk : s.task t = .live k)
    (hp : t ∈ H ∨ k'.runState = k.runState ∧ k'.cpu = k.cpu) :
    Placed (s.setTask t k') H := by
  refine h.relocate (setTask_task_self s t k') (fun u hu => setTask_task_ne hu)
    (fun _ _ => Iff.rfl) (fun u p _ hat => hat.setTask)
    (fun ht => (h.hand t ht).1.setTask) (fun ht => ?_) h.exclusive
  obtain ⟨p, hpl, hat⟩ := h.live t k hk ht
  refine ⟨p, ?_, hat.setTask⟩
  obtain ⟨hrs, hcpu⟩ := hp.resolve_left ht
  rw [NetTask.place, hrs, hcpu]
  exact hpl

theorem Placed.enqueue {s : NetScheduler} {H : Set TaskId} {t : TaskId}
    {k : NetTask} (h : Placed s H) (ht : t ∈ H) :
    Placed ((s.setTask t { k with runState := .queued }).push t k)
      (H \ {t}) := by
  refine h.relocate (setTask_task_self s t _)
    (fun u hu => setTask_task_ne hu) diff_other
    (fun u p hu hat => hat.setTask.push hu)
    (fun hmem => absurd hmem not_mem_diff)
    (fun _ => ⟨.queue, rfl, ?_⟩) h.exclusive
  exact (h.hand t ht).1.setTask.push_self

theorem Placed.yield {s : NetScheduler} {H : Set TaskId} {t : TaskId}
    {k : NetTask} (h : Placed s H) (ht : t ∈ H) :
    Placed
      { s.setTask t { k with runState := .yielding } with
        yieldingTasks := s.yieldingTasks ++ [t] } (H \ {t}) := by
  refine h.relocate (setTask_task_self s t _)
    (fun u hu => setTask_task_ne hu) diff_other
    (fun u p hu hat => ?_) (fun hmem => absurd hmem not_mem_diff)
    (fun _ => ⟨.yielding, rfl, ?_⟩) h.exclusive
  · have hne : t ≠ u := Ne.symm hu
    exact ⟨hat.queue, by simpa [hne] using hat.yielding, hat.next, hat.current⟩
  · have hat := (h.hand t ht).1
    exact ⟨by simpa [NetScheduler.setTask] using hat.queue,
      by simpa using hat.yielding,
      by simpa [NetScheduler.setTask] using hat.next,
      by simpa [NetScheduler.setTask] using hat.current⟩

theorem Placed.block {s : NetScheduler} {H : Set TaskId} {t : TaskId}
    {k : NetTask} (h : Placed s H) (ht : t ∈ H) :
    Placed (s.setTask t { k with runState := .blocked }) (H \ {t}) :=
  h.relocate (setTask_task_self s t _)
    (fun _ hu => setTask_task_ne hu) diff_other
    (fun _ _ _ hat => hat.setTask) (fun hmem => absurd hmem not_mem_diff)
    (fun _ => ⟨.nowhere, rfl, (h.hand t ht).1.setTask⟩) h.exclusive

theorem Placed.wake {s : NetScheduler} {H : Set TaskId} {t : TaskId}
    {k : NetTask} (h : Placed s H) (hk : s.task t = .live k)
    (hb : k.runState = .blocked) (ht : t ∉ H) : Placed s (insert t H) :=
  h.relocate hk (fun _ _ => rfl) insert_other (fun _ _ _ hat => hat)
    (fun _ => h.at_blocked hk ht hb)
    (fun hmem => absurd (Set.mem_insert t H) hmem) h.exclusive

/-- Taking a queued task out of the queues: one occurrence fewer of the task,
as many as before of every other. -/
theorem Placed.takeQueued {s s' : NetScheduler} {H : Set TaskId} {t : TaskId}
    {k : NetTask} (h : Placed s H) (hk : s.task t = .live k)
    (hmem : t ∈ s.runQueue ++ s.runQueueLowPriority)
    (hcount : ∀ u, (s'.runQueue ++ s'.runQueueLowPriority).count u =
      ((s.runQueue ++ s.runQueueLowPriority).erase t).count u)
    (htask : s'.task = s.task) (hy : s'.yieldingTasks = s.yieldingTasks)
    (hc : s'.cpuStates = s.cpuStates) : Placed s' (insert t H) := by
  obtain ⟨hH, hrs⟩ := h.queued_of_mem hk hmem
  have hat := h.at_queued hk hH hrs
  refine h.relocate (by rw [htask]; exact hk) (fun u _ => by rw [htask])
    insert_other (fun u p hu hu' => ?_) (fun _ => ?_)
    (fun hn => absurd (Set.mem_insert t H) hn) (by rw [hc]; exact h.exclusive)
  · refine ⟨?_, by rw [hy]; exact hu'.yielding, by rw [hc]; exact hu'.next,
      by rw [hc]; exact hu'.current⟩
    rw [hcount, List.count_erase_of_ne hu]
    exact hu'.queue
  · refine ⟨?_, by rw [hy]; simpa using hat.yielding,
      by rw [hc]; simpa using hat.next, by rw [hc]; simpa using hat.current⟩
    rw [hcount, List.count_erase_self, hat.queue]
    simp

/-- What `Dequeue` took and from where. -/
theorem dequeue_some {s s' : NetScheduler} {t : TaskId}
    (h : dequeue s = .ok (some t, s')) :
    (∃ rest, s.runQueue = t :: rest ∧
      s' = { s with runQueue := rest, log := s.log ++ [.dequeued t] }) ∨
    (s.runQueue = [] ∧ ∃ rest, s.runQueueLowPriority = t :: rest ∧
      s' = { s with
        runQueueLowPriority := rest, log := s.log ++ [.dequeued t] }) := by
  unfold dequeue at h
  split at h
  · next u rest hq =>
      injection h with h
      injection h with hu hs
      injection hu with hu
      subst hu
      exact Or.inl ⟨rest, hq, hs.symm⟩
  · next hq =>
      split at h
      · cases h
      · next u rest hl =>
          injection h with h
          injection h with hu hs
          injection hu with hu
          subst hu
          exact Or.inr ⟨hq, rest, hl, hs.symm⟩

theorem dequeue_mem {s s' : NetScheduler} {t : TaskId}
    (h : dequeue s = .ok (some t, s')) :
    t ∈ s.runQueue ++ s.runQueueLowPriority := by
  rcases dequeue_some h with ⟨rest, hq, -⟩ | ⟨-, rest, hl, -⟩
  · simp [hq]
  · simp [hl]

theorem dequeue_task {s s' : NetScheduler} {t : TaskId}
    (h : dequeue s = .ok (some t, s')) : s'.task = s.task := by
  rcases dequeue_some h with ⟨rest, -, rfl⟩ | ⟨-, rest, -, rfl⟩ <;> rfl

theorem dequeue_cpuStates {s s' : NetScheduler} {t : TaskId}
    (h : dequeue s = .ok (some t, s')) : s'.cpuStates = s.cpuStates := by
  rcases dequeue_some h with ⟨rest, -, rfl⟩ | ⟨-, rest, -, rfl⟩ <;> rfl

theorem dequeue_none {s s' : NetScheduler} (h : dequeue s = .ok (none, s')) :
    s.runQueue = [] ∧ s.runQueueLowPriority = [] ∧ s' = s := by
  unfold dequeue at h
  split at h
  · cases h
  · next hq =>
      split at h
      · next hl =>
          injection h with h
          injection h with _ hs
          exact ⟨hq, hl, hs.symm⟩
      · cases h

theorem Placed.dequeue {s s' : NetScheduler} {H : Set TaskId} {t : TaskId}
    {k : NetTask} (h : Placed s H) (hk : s.task t = .live k)
    (hd : Agent.dequeue s = .ok (some t, s')) : Placed s' (insert t H) := by
  rcases dequeue_some hd with ⟨rest, hq, rfl⟩ | ⟨hq, rest, hl, rfl⟩
  · exact h.takeQueued hk (by simp [hq]) (fun u => by simp [hq]) rfl rfl rfl
  · exact h.takeQueued hk (by simp [hl]) (fun u => by simp [hq, hl]) rfl rfl rfl

theorem Placed.unqueue {s : NetScheduler} {H : Set TaskId} {t : TaskId}
    {k : NetTask} (h : Placed s H) (hk : s.task t = .live k)
    (hmem : t ∈ s.runQueue ++ s.runQueueLowPriority) :
    Placed (s.unqueue t) (insert t H) := by
  by_cases hq : t ∈ s.runQueue
  · refine h.takeQueued hk hmem (fun u => ?_) ?_ ?_ ?_
    · rw [NetScheduler.unqueue, if_pos hq, List.erase_append_left _ hq]
    all_goals rw [NetScheduler.unqueue, if_pos hq]
  · refine h.takeQueued hk hmem (fun u => ?_) ?_ ?_ ?_
    · rw [NetScheduler.unqueue, if_neg hq, List.erase_append_right _ hq]
    all_goals rw [NetScheduler.unqueue, if_neg hq]

theorem Placed.unyield {s : NetScheduler} {H : Set TaskId} {t : TaskId}
    {k : NetTask} {ts : List TaskId} (h : Placed s H)
    (hk : s.task t = .live k) (hy : s.yieldingTasks = t :: ts) :
    Placed { s with yieldingTasks := ts } (insert t H) := by
  obtain ⟨hH, hrs⟩ := h.yielding_of_mem hk (by simp [hy])
  obtain ⟨p, hp, hat⟩ := h.live t k hk hH
  rw [NetTask.place, hrs] at hp
  cases hp
  refine h.relocate hk (fun _ _ => rfl) insert_other (fun u p hu hu' => ?_)
    (fun _ => ?_) (fun hn => absurd (Set.mem_insert t H) hn) h.exclusive
  · have hne : t ≠ u := Ne.symm hu
    refine ⟨hu'.queue, ?_, hu'.next, hu'.current⟩
    have hcount := hu'.yielding
    rw [hy, List.count_cons_of_ne hne] at hcount
    exact hcount
  · refine ⟨by simpa using hat.queue, ?_, by simpa using hat.next,
      by simpa using hat.current⟩
    have hcount := hat.yielding
    rw [hy, List.count_cons_self] at hcount
    simpa using hcount

theorem Placed.vacate {s : NetScheduler} {H : Set TaskId} {t : TaskId}
    {k : NetTask} {c : CpuId} (h : Placed s H) (hk : s.task t = .live k)
    (hc : (s.cpuStates c).current = some t) :
    Placed (s.setCurrent c none) (insert t H) := by
  obtain ⟨hH, hrs, hcpu⟩ := h.at_current hk hc
  obtain ⟨p, hp, hat⟩ := h.live t k hk hH
  rw [NetTask.place, hrs, hcpu] at hp
  cases hp
  refine h.relocate hk (fun _ _ => rfl) insert_other (fun u p hu hu' => ?_)
    (fun _ => ?_) (fun hn => absurd (Set.mem_insert t H) hn)
    (h.exclusive_setCpu (Or.inl rfl))
  · refine hu'.setCpu ?_ Iff.rfl
    simp [hc, Ne.symm hu]
  · refine ⟨by simpa [NetScheduler.setCurrent] using hat.queue,
      by simpa [NetScheduler.setCurrent] using hat.yielding, fun d => ?_,
      fun d => ?_⟩
    · by_cases hd : d = c
      · subst hd
        have := hat.next d
        simpa [NetScheduler.setCurrent] using this
      · rw [NetScheduler.setCurrent, setCpu_ne hd]
        simpa using hat.next d
    · by_cases hd : d = c
      · subst hd
        simp [NetScheduler.setCurrent]
      · rw [NetScheduler.setCurrent, setCpu_ne hd, hat.current d]
        simp [Ne.symm hd]

theorem Placed.clearNext {s : NetScheduler} {H : Set TaskId} {t : TaskId}
    {k : NetTask} {c : CpuId} (h : Placed s H) (hk : s.task t = .live k)
    (hc : (s.cpuStates c).next = some t) :
    Placed (s.setNext c none) (insert t H) := by
  obtain ⟨hH, hrs, hcpu⟩ := h.at_next hk hc
  obtain ⟨p, hp, hat⟩ := h.live t k hk hH
  rw [NetTask.place, hrs, hcpu] at hp
  cases hp
  refine h.relocate hk (fun _ _ => rfl) insert_other (fun u p hu hu' => ?_)
    (fun _ => ?_) (fun hn => absurd (Set.mem_insert t H) hn)
    (h.exclusive_setCpu (Or.inr rfl))
  · refine hu'.setCpu Iff.rfl ?_
    simp [hc, Ne.symm hu]
  · refine ⟨by simpa [NetScheduler.setNext] using hat.queue,
      by simpa [NetScheduler.setNext] using hat.yielding, fun d => ?_,
      fun d => ?_⟩
    · by_cases hd : d = c
      · subst hd
        simp [NetScheduler.setNext]
      · rw [NetScheduler.setNext, setCpu_ne hd, hat.next d]
        simp [Ne.symm hd]
    · by_cases hd : d = c
      · subst hd
        have := hat.current d
        simpa [NetScheduler.setNext] using this
      · rw [NetScheduler.setNext, setCpu_ne hd]
        simpa using hat.current d

/-- Putting a task in hand on an empty CPU, as current or as next. -/
theorem Placed.occupy {s : NetScheduler} {H : Set TaskId} {t : TaskId}
    {k' : NetTask} {c : CpuId} {p : Place} (h : Placed s H) (cs : CpuState)
    (ht : t ∈ H) (hc : (s.cpuStates c).current = none)
    (hn : (s.cpuStates c).next = none) (hp : k'.place = some p)
    (hcs : (p = .current c ∧ cs.current = some t ∧ cs.next = none) ∨
      (p = .next c ∧ cs.current = none ∧ cs.next = some t)) :
    Placed ((s.setCpu c cs).setTask t k') (H \ {t}) := by
  have hat := (h.hand t ht).1
  refine h.relocate (setTask_task_self _ t k') (fun u hu => setTask_task_ne hu)
    diff_other (fun u q hu hu' => (hu'.setCpu ?_ ?_).setTask)
    (fun hmem => absurd hmem not_mem_diff) (fun _ => ⟨p, hp, ?_⟩)
    (h.exclusive_setCpu ?_)
  · rcases hcs with ⟨-, h1, -⟩ | ⟨-, h1, -⟩ <;> simp [h1, hc, Ne.symm hu]
  · rcases hcs with ⟨-, -, h2⟩ | ⟨-, -, h2⟩ <;> simp [h2, hn, Ne.symm hu]
  · refine At.setTask ⟨?_, ?_, fun d => ?_, fun d => ?_⟩
    · rcases hcs with ⟨rfl, -⟩ | ⟨rfl, -⟩ <;> simpa using hat.queue
    · rcases hcs with ⟨rfl, -⟩ | ⟨rfl, -⟩ <;> simpa using hat.yielding
    · by_cases hd : d = c
      · subst hd
        rcases hcs with ⟨rfl, -, h2⟩ | ⟨rfl, -, h2⟩ <;> simp [h2]
      · rw [setCpu_ne hd, hat.next d]
        rcases hcs with ⟨rfl, -⟩ | ⟨rfl, -⟩ <;> simp [Ne.symm hd]
    · by_cases hd : d = c
      · subst hd
        rcases hcs with ⟨rfl, h1, -⟩ | ⟨rfl, h1, -⟩ <;> simp [h1]
      · rw [setCpu_ne hd, hat.current d]
        rcases hcs with ⟨rfl, -⟩ | ⟨rfl, -⟩ <;> simp [Ne.symm hd]
  · rcases hcs with ⟨-, -, h2⟩ | ⟨-, h1, -⟩
    · exact Or.inr h2
    · exact Or.inl h1

/-- Every move keeps every live task where its record says. -/
theorem Placed.move {s s' : NetScheduler} {H H' : Set TaskId}
    (h : Placed s H) (hm : Move s H s' H') : Placed s' H' := by
  cases hm with
  | touch hk hp _ => exact h.touch hk hp
  | enqueue _ ht => exact h.enqueue ht
  | yield _ ht => exact h.yield ht
  | block _ ht => exact h.block ht
  | wake hk hb ht => exact h.wake hk hb ht
  | dequeue hk hd => exact h.dequeue hk hd
  | unqueue hk hmem => exact h.unqueue hk hmem
  | unyield hk hy => exact h.unyield hk hy
  | vacate hk hc => exact h.vacate hk hc
  | reap hk hn _ => exact (h.clearNext hk hn).quiet rfl rfl rfl rfl fun _ =>
      ⟨rfl, rfl⟩
  | @run _ t _ _ c _ ht hc hn hr hcpu _ =>
      refine h.occupy { s.cpuStates c with current := some t } ht hc hn
        (p := .current c) ?_ (Or.inl ⟨rfl, rfl, hn⟩)
      rw [NetTask.place, hr, hcpu]
      rfl
  | @openBatched _ t _ _ c _ ht hc hn hr hcpu _ =>
      refine (h.occupy { s.cpuStates c with next := some t } ht hc hn
        (p := .next c) ?_ (Or.inr ⟨rfl, hc, rfl⟩)).quiet rfl rfl rfl rfl
          fun _ => ⟨rfl, rfl⟩
      rw [NetTask.place, hr, hcpu]
      rfl
  | openSync _ | openUnschedule _ | poll _ _ | handOver _ _ | countTxn | submit
  | bump => exact h.quiet rfl rfl rfl rfl fun _ => ⟨rfl, rfl⟩
  | @switchto _ c _ =>
      refine h.quiet rfl rfl rfl rfl fun d => ?_
      by_cases hd : d = c
      · subst hd
        rw [NetScheduler.setInSwitchto, setCpu_self]
        exact ⟨rfl, rfl⟩
      · rw [NetScheduler.setInSwitchto, setCpu_ne hd]
        exact ⟨rfl, rfl⟩

theorem Placed.moves {s s' : NetScheduler} {H H' : Set TaskId}
    (h : Placed s H) (hm : Moves s H s' H') : Placed s' H' :=
  Moves.preserve (P := Placed) (fun _ _ _ _ hp hm => hp.move hm) hm h

/-! ## What moves leave alone -/

/-- A move neither creates nor frees a task, and it leaves the priority and
the mask of every task alone. -/
theorem Move.slot {s s' : NetScheduler} {H H' : Set TaskId}
    (hm : Move s H s' H') (u : TaskId) :
    s'.task u = s.task u ∨
      ∃ k k', s.task u = .live k ∧ s'.task u = .live k' ∧
        k'.fixed = k.fixed := by
  have hset : ∀ {t : TaskId} {l l' : NetTask} {s₁ : NetScheduler},
      s₁.task = s.task → s.task t = .live l → l'.fixed = l.fixed →
      (s₁.setTask t l').task u = s.task u ∨
        ∃ k k', s.task u = .live k ∧ (s₁.setTask t l').task u = .live k' ∧
          k'.fixed = k.fixed := by
    intro t l l' s₁ hs hl hfix
    by_cases hut : u = t
    · subst hut
      exact Or.inr ⟨l, l', hl, setTask_task_self s₁ u l', hfix⟩
    · exact Or.inl ((setTask_task_ne hut).trans (congrFun hs u))
  cases hm with
  | touch hk _ hhi => exact hset rfl hk hhi
  | enqueue hk _ | yield hk _ | block hk _ => exact hset rfl hk rfl
  | dequeue hk hd =>
      rcases dequeue_some hd with ⟨rest, -, rfl⟩ | ⟨-, rest, -, rfl⟩ <;>
        exact Or.inl rfl
  | unqueue hk hmem =>
      unfold NetScheduler.unqueue
      split <;> exact Or.inl rfl
  | run hk _ _ _ _ _ hhi | openBatched hk _ _ _ _ _ hhi =>
      exact hset rfl hk hhi
  | wake | unyield | vacate | reap | openSync | openUnschedule | poll
  | switchto | handOver | countTxn | submit | bump => exact Or.inl rfl

theorem Moves.slot {s s' : NetScheduler} {H H' : Set TaskId}
    (hm : Moves s H s' H') (u : TaskId) :
    s'.task u = s.task u ∨
      ∃ k k', s.task u = .live k ∧ s'.task u = .live k' ∧
        k'.fixed = k.fixed := by
  induction hm with
  | refl => exact Or.inl rfl
  | head hm _ ih =>
      rcases hm.slot u with h₁ | ⟨k, k₁, hk, hk₁, hf₁⟩
      · rw [← h₁]
        exact ih
      · rcases ih with h₂ | ⟨k₁', k₂, hk₁', hk₂, hf₂⟩
        · exact Or.inr ⟨k, k₁, hk, h₂.trans hk₁, hf₁⟩
        · cases hk₁.symm.trans hk₁'
          exact Or.inr ⟨k, k₂, hk, hk₂, hf₂.trans hf₁⟩

theorem Moves.live {s s' : NetScheduler} {H H' : Set TaskId} {u : TaskId}
    {k : NetTask} (hm : Moves s H s' H') (hu : s.task u = .live k) :
    ∃ k', s'.task u = .live k' ∧ k'.fixed = k.fixed := by
  rcases hm.slot u with h | ⟨l, k', hl, hk', hf⟩
  · exact ⟨k, h.trans hu, rfl⟩
  · cases hl.symm.trans hu
    exact ⟨k', hk', hf⟩

theorem Moves.live_iff {s s' : NetScheduler} {H H' : Set TaskId}
    (hm : Moves s H s' H') (u : TaskId) :
    (∃ k, s'.task u = .live k) ↔ ∃ k, s.task u = .live k := by
  rcases hm.slot u with h | ⟨k, k', hk, hk', -⟩
  · rw [h]
  · exact ⟨fun _ => ⟨k, hk⟩, fun _ => ⟨k', hk'⟩⟩

theorem Move.numTasks {s s' : NetScheduler} {H H' : Set TaskId}
    (hm : Move s H s' H') : s'.numTasks = s.numTasks := by
  cases hm with
  | dequeue hk hd =>
      rcases dequeue_some hd with ⟨rest, -, rfl⟩ | ⟨-, rest, -, rfl⟩ <;> rfl
  | unqueue hk hmem =>
      unfold NetScheduler.unqueue
      split <;> rfl
  | _ => rfl

theorem Moves.numTasks {s s' : NetScheduler} {H H' : Set TaskId}
    (hm : Moves s H s' H') : s'.numTasks = s.numTasks := by
  induction hm with
  | refl => rfl
  | head hm _ ih => exact ih.trans hm.numTasks

/-- A move handles a live task, and the tables say the same as before about
every other. -/
theorem Absent.move {s s' : NetScheduler} {H H' : Set TaskId} {u : TaskId}
    (h : Absent s u) (hm : Move s H s' H') :
    Absent s' u ∧ s'.task u = s.task u := by
  have hne : ∀ {t : TaskId} {k : NetTask}, s.task t = .live k → u ≠ t := by
    rintro t k hk rfl
    exact h.notLive k hk
  have hsame : ∀ {s' : NetScheduler}, s'.task u = s.task u →
      At s' u .nowhere → Absent s' u ∧ s'.task u = s.task u := fun ht hat =>
    ⟨⟨fun k hk => h.notLive k (ht.symm.trans hk), hat⟩, ht⟩
  have hat := h.nowhere
  cases hm with
  | touch hk _ _ => exact hsame (setTask_task_ne (hne hk)) hat.setTask
  | enqueue hk _ =>
      exact hsame (setTask_task_ne (hne hk)) (hat.setTask.push (hne hk))
  | yield hk _ =>
      have hut := Ne.symm (hne hk)
      exact hsame (setTask_task_ne (hne hk)) ⟨hat.queue,
        by simpa [hut] using hat.yielding, hat.next, hat.current⟩
  | block hk _ => exact hsame (setTask_task_ne (hne hk)) hat.setTask
  | wake hk _ _ => exact hsame rfl hat
  | dequeue hk hd =>
      have hut := Ne.symm (hne hk)
      rcases dequeue_some hd with ⟨rest, hq, rfl⟩ | ⟨hq, rest, hl, rfl⟩
      · exact hsame rfl ⟨by simpa [hq, hut] using hat.queue, hat.yielding,
          hat.next, hat.current⟩
      · exact hsame rfl ⟨by simpa [hq, hl, hut] using hat.queue, hat.yielding,
          hat.next, hat.current⟩
  | @unqueue _ t _ hk hmem =>
      have herase : ∀ l : List TaskId, (l.erase t).count u = l.count u :=
        fun l => List.count_erase_of_ne (hne hk)
      have hq := hat.queue
      rw [List.count_append] at hq
      unfold NetScheduler.unqueue
      split
      · exact hsame rfl ⟨by rw [List.count_append, herase]; exact hq,
          hat.yielding, hat.next, hat.current⟩
      · exact hsame rfl ⟨by rw [List.count_append, herase]; exact hq,
          hat.yielding, hat.next, hat.current⟩
  | unyield hk hy =>
      have hut := Ne.symm (hne hk)
      exact hsame rfl ⟨hat.queue, by simpa [hy, hut] using hat.yielding,
        hat.next, hat.current⟩
  | vacate hk hc =>
      refine hsame rfl (hat.setCpu ?_ Iff.rfl)
      simp [hc, Ne.symm (hne hk)]
  | @reap _ t _ c _ hk hn _ =>
      have hat' : At (s.setNext c none) u .nowhere := by
        refine hat.setCpu Iff.rfl ?_
        simp [hn, Ne.symm (hne hk)]
      exact hsame rfl ⟨hat'.queue, hat'.yielding, hat'.next, hat'.current⟩
  | run hk _ hc hn _ _ _ =>
      refine hsame (setTask_task_ne (hne hk))
        (At.setTask (hat.setCpu ?_ Iff.rfl))
      simp [hc, Ne.symm (hne hk)]
  | @openBatched _ t _ _ c hk _ hc hn _ _ _ =>
      have hat' : At (s.setNext c (some t)) u .nowhere := by
        refine hat.setCpu Iff.rfl ?_
        simp [hn, Ne.symm (hne hk)]
      exact hsame (setTask_task_ne (hne hk))
        ⟨hat'.queue, hat'.yielding, hat'.next, hat'.current⟩
  | openSync _ | openUnschedule _ | poll _ _ | handOver _ _ | countTxn | submit
  | bump => exact hsame rfl ⟨hat.queue, hat.yielding, hat.next, hat.current⟩
  | switchto => exact hsame rfl (hat.setCpu Iff.rfl Iff.rfl)

theorem Absent.moves {s s' : NetScheduler} {H H' : Set TaskId} {u : TaskId}
    (h : Absent s u) (hm : Moves s H s' H') :
    Absent s' u ∧ s'.task u = s.task u := by
  induction hm with
  | refl => exact ⟨h, rfl⟩
  | head hm _ ih =>
      obtain ⟨h₁, ht₁⟩ := h.move hm
      obtain ⟨h₂, ht₂⟩ := ih h₁
      exact ⟨h₂, ht₂.trans ht₁⟩

end GhostDataplane.Agent
