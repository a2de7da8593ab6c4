import GhostDataplane.Lib.Line
import GhostDataplane.Lib.Runs
import GhostDataplane.Proofs.Messages
import GhostDataplane.Proofs.Replies
import GhostDataplane.Proofs.Turns

/-!
# Tasks are served in the order in which they wait

`Dequeue` takes the front of the high-priority queue, and the front of the other
when that one is empty, so the two queues one after the other are a single line.
An operation of the scheduler does to this line what one may do to a line: tasks
join it, at either end of their class, the one in front is taken out of it, and
a message about a queued task may remove that task. Nothing rearranges it, and
nothing is taken from the middle otherwise.

What follows is `service_order`: a task that waits behind another, whatever
classes the two are of, is not taken before the other one has been, in any run
that removes neither of them. That holds however many rounds, migrations and
messages there are in between, also when the flags of the two change while they
wait, and also when the task ahead has departed, since the agent then stops at
it. A task that overtakes another has not waited all the time.
-/

namespace GhostDataplane.Agent

open GhostDataplane.Lib

/-! ## The line -/

/-- The task that an entry of the log says was taken off a run queue. -/
def Event.taken : Event → Option TaskId
  | .dequeued t => some t
  | _ => none

/-- The tasks that were taken off the run queues, oldest first. -/
def served (s : NetScheduler) : List TaskId := s.log.filterMap Event.taken

/-- The run queues as `Dequeue` sees them. -/
def NetScheduler.line (s : NetScheduler) : Line TaskId :=
  ⟨served s, s.runQueue ++ s.runQueueLowPriority⟩

theorem served_note {s s' : NetScheduler} {e : Event}
    (hlog : s'.log = s.log ++ [e]) (he : e.taken = none) :
    served s' = served s := by
  rw [served, served, hlog, List.filterMap_append, List.filterMap_cons_none he,
    List.filterMap_nil, List.append_nil]

theorem unwritten_served : Unwritten served where
  task _ _ := rfl
  cpuStates _ _ := rfl
  queues _ _ _ := rfl
  yieldingTasks _ _ := rfl
  numTasks _ _ := rfl
  reaped _ _ _ _ := served_note rfl rfl

section Line

variable {stays : TaskId → Prop} {s s' : NetScheduler}

/-- Nobody joined, left or was served. -/
theorem line_same (hserved : served s' = served s)
    (hq : s'.runQueue = s.runQueue)
    (hl : s'.runQueueLowPriority = s.runQueueLowPriority) :
    Line.Steps stays s.line s'.line := by
  rw [NetScheduler.line, NetScheduler.line, hserved, hq, hl]

/-- A task joins at the end that its record says. -/
theorem line_push {t : TaskId} {k : NetTask} (hserved : served s' = served s)
    (hq : s'.runQueue = (s.push t k).runQueue)
    (hl : s'.runQueueLowPriority = (s.push t k).runQueueLowPriority) :
    Line.Steps stays s.line s'.line := by
  have hjoin : ∀ front back,
      s.runQueue ++ s.runQueueLowPriority = front ++ back →
      s'.runQueue ++ s'.runQueueLowPriority = front ++ t :: back →
      Line.Steps stays s.line s'.line := by
    intro front back hold hnew
    rw [NetScheduler.line, NetScheduler.line, hold, hnew, hserved]
    exact .single .join
  rw [NetScheduler.push] at hq hl
  simp only at hq hl
  cases hhigh : k.highPriority with
  | true =>
      rw [hhigh, if_pos rfl, NetScheduler.pushEnd] at hq
      rw [hhigh, if_pos rfl] at hl
      split at hq
      · exact hjoin [] (s.runQueue ++ s.runQueueLowPriority) rfl
          (by rw [hq, hl]; rfl)
      · exact hjoin s.runQueue s.runQueueLowPriority rfl (by rw [hq, hl]; simp)
  | false =>
      rw [hhigh, if_neg (by simp)] at hq
      rw [hhigh, if_neg (by simp), NetScheduler.pushEnd] at hl
      split at hl
      · exact hjoin s.runQueue s.runQueueLowPriority rfl (by rw [hq, hl])
      · exact hjoin (s.runQueue ++ s.runQueueLowPriority) [] (by simp)
          (by rw [hq, hl]; simp)

/-- A task is taken out of the queue it is in. -/
theorem line_unqueue {t : TaskId} (ht : ¬ stays t)
    (hserved : served s' = served s) (hq : s'.runQueue = (s.unqueue t).runQueue)
    (hl : s'.runQueueLowPriority = (s.unqueue t).runQueueLowPriority) :
    Line.Steps stays s.line s'.line := by
  have hnew : s'.runQueue ++ s'.runQueueLowPriority =
      (s.runQueue ++ s.runQueueLowPriority).erase t := by
    rw [hq, hl, NetScheduler.unqueue]
    split
    · next hmem => rw [List.erase_append_left _ hmem]
    · next hmem => rw [List.erase_append_right _ hmem]
  rw [NetScheduler.line, NetScheduler.line, hnew, hserved]
  exact .single (.leave ht)

/-- The task in front is served. -/
theorem Taken.line {n : TaskId} {k : NetTask} (h : Taken s n k s') :
    Line.Steps stays s.line s'.line := by
  have hat := (h.placed.hand n (Set.mem_insert n ∅)).1
  have hnot : n ∉ s'.runQueue ++ s'.runQueueLowPriority := by
    rw [List.mem_append, not_or]
    exact ⟨hat.not_mem_runQueue nofun, hat.not_mem_lowPriority nofun⟩
  have hserve : s.runQueue ++ s.runQueueLowPriority =
      n :: (s'.runQueue ++ s'.runQueueLowPriority) →
      s'.log = s.log ++ [.dequeued n] →
      Line.Steps stays s.line s'.line := by
    intro hold hlog
    have hserved : served s' = served s ++ [n] := by
      rw [served, hlog, List.filterMap_append]
      rfl
    rw [NetScheduler.line, NetScheduler.line, hold, hserved]
    exact .single (.serve hnot)
  rcases dequeue_some h.dequeued with ⟨rest, hq, rfl⟩ | ⟨hq, rest, hl, rfl⟩
  · exact hserve (by rw [hq]; rfl) rfl
  · exact hserve (by rw [hq, hl]; rfl) rfl

/-! ## Rounds and migrations -/

theorem Settled.line {c : CpuId} (h : Settled c s s') :
    Line.Steps stays s.line s'.line := by
  rcases h with ⟨-, hpoll, -⟩ | ⟨b, hreap⟩
  · rw [hpoll.eq]
    exact line_same rfl rfl rfl
  · have hserved := hreap.unwritten unwritten_served.toUnwrittenAside
    obtain ⟨t, k, st, -, -, -, ⟨-, -, rfl⟩ | ⟨-, -, rfl⟩⟩ := hreap
    · exact line_same hserved rfl rfl
    · exact line_push hserved rfl rfl

theorem AssignStep.line {cfg : Config} {env : RoundEnv} {n : TaskId}
    {k : NetTask} {a a' : Assign} (h : AssignStep cfg env n k s a s' a') :
    Line.Steps stays s.line s'.line := by
  cases h with
  | stale | unplaced => exact line_same rfl rfl rfl
  | batched => exact line_same (served_note rfl rfl) rfl rfl
  | replaced _ _ _ hrep =>
      have hserved := served_note hrep.log rfl
      rcases hrep.result with ⟨-, rfl⟩ | ⟨-, rfl⟩
      · exact line_push hserved rfl rfl
      · exact line_push hserved rfl rfl

theorem RoundTurn.line {cfg : Config} {env : RoundEnv}
    (h : RoundTurn cfg env s s') :
    Line.Steps stays s.line s'.line := by
  cases h with
  | settled hset => exact hset.line
  | assigned ht has _ _ => exact ht.line.trans has.line
  | submitted => exact line_same (served_note rfl rfl) rfl rfl
  | requeued => exact line_push rfl rfl rfl
  | bumped => exact line_same rfl rfl rfl

theorem globalSchedule_line {cfg : Config} {env : RoundEnv} (hp : Placed s ∅)
    (h : globalSchedule cfg env s = .ok ((), s')) :
    Line.Steps stays s.line s'.line :=
  globalSchedule_invariant (I := fun s' => Line.Steps stays s.line s'.line)
    (fun _ _ _ hsteps hturn => hsteps.trans hturn.line) hp .refl h

theorem pickNextGlobalCpu_line {cfg : Config} {env : MigrateEnv}
    (hp : Placed s ∅) (h : pickNextGlobalCpu cfg env s = .ok ((), s')) :
    Line.Steps stays s.line s'.line := by
  rcases pickNextGlobalCpu_cases hp h with rfl | ⟨c, s₁, s₂, hm⟩
  · exact .refl
  · have hvacated : Line.Steps stays s₁.line s₂.line := by
      cases hm.vacated with
      | idle => exact .refl
      | evicted => exact line_push (served_note rfl rfl) rfl rfl
    have hover : Line.Steps stays s₂.line s'.line := by
      rw [hm.handOver]
      exact line_same (served_note rfl rfl) rfl rfl
    exact hm.settled.line.trans (hvacated.trans hover)

end Line

/-! ## Messages -/

/-- The messages that can take the task out of a run queue. -/
def Op.removes (t : TaskId) : Op → Prop
  | .taskBlocked u _ | .taskSwitchto u _ => u = t
  | _ => False

section Messages

variable {cfg : Config} {s s' : NetScheduler} {op : Op}

/-- A message about a task changes the line by that task at most. -/
theorem Reply.line {stays : TaskId → Prop} {t : TaskId} {k k' : NetTask}
    (h : Reply t k k' s s') (hserved : served s' = served s)
    (hleaves : k.runState = .queued → k'.runState ≠ .queued → ¬ stays t) :
    Line.Steps stays s.line s'.line := by
  cases h.queue with
  | same _ hq hl => exact line_same hserved hq hl
  | pushed _ _ hq hl => exact line_push hserved hq hl
  | erased hk hk' hq hl => exact line_unqueue (hleaves hk hk') hserved hq hl

/-- Every operation does to the run queues what one may do to a line. -/
theorem perform_line (hp : Placed s ∅) (h : perform cfg op s = .ok ((), s')) :
    Line.Steps (fun t => ¬ op.removes t) s.line s'.line := by
  by_cases hmsg : op.isMessage = true
  · have hserved : served s' = served s :=
      perform_unwritten unwritten_served hmsg s () s' h
    cases op with
    | globalSchedule | pickNextGlobalCpu => cases hmsg
    | taskNew t p msg =>
        cases taskNew_step h with
        | moves hop => exact absurd rfl (hop t p msg)
        | new => exact line_same hserved rfl rfl
        | newRunnable => exact line_push hserved rfl rfl
    | taskDead t n =>
        obtain ⟨k, -, -, rfl⟩ := taskDead_ok h
        exact line_same hserved rfl rfl
    | taskDeparted t msg =>
        obtain ⟨k, -, rfl | ⟨c, rfl⟩⟩ := taskDeparted_ok h
        · exact line_same hserved rfl rfl
        · exact line_same hserved rfl rfl
    | taskRunnable t msg =>
        obtain ⟨k, k', hr, hb, -⟩ := taskRunnable_reply h
        exact hr.line hserved fun hq => by cases hb.symm.trans hq
    | taskPreempted t msg =>
        obtain ⟨k, k', hr, hq', -⟩ := taskPreempted_reply h
        exact hr.line hserved fun _ hne => absurd hq' hne
    | taskYield t msg =>
        obtain ⟨k, k', hr, hiff, -⟩ := taskYield_reply h
        exact hr.line hserved fun hq hne => absurd (hiff.mpr hq) hne
    | taskBlocked t msg =>
        obtain ⟨k, k', hr, -⟩ := taskBlocked_reply h
        exact hr.line hserved fun _ _ hstays => hstays rfl
    | taskSwitchto t msg =>
        obtain ⟨k, k', hr, -⟩ := taskSwitchto_reply h
        exact hr.line hserved fun _ _ hstays => hstays rfl
  · cases op with
    | globalSchedule => exact globalSchedule_line hp h
    | pickNextGlobalCpu => exact pickNextGlobalCpu_line hp h
    | _ => exact absurd rfl hmsg

end Messages

/-! ## Runs -/

/-- Neither of the two is taken out of a run queue by a message. -/
def leavesBoth (t u : TaskId) (_ : NetScheduler) (op : Op) : Prop :=
  ¬ op.removes t ∧ ¬ op.removes u

theorem steps_line {cfg : Config} {s s' : NetScheduler} {ops : List Op}
    {t u : TaskId} (hs : Reachable cfg s)
    (hrun : (netScheduler cfg).Steps (leavesBoth t u) s ops s') :
    Line.Steps (fun x => x = t ∨ x = u) s.line s'.line := by
  refine (hrun.invariant (I := fun s₁ => Reachable cfg s₁ ∧
    Line.Steps (fun x => x = t ∨ x = u) s.line s₁.line) ⟨hs, .refl⟩ ?_).2
  rintro s₁ op s₂ ⟨hs₁, hsteps⟩ ⟨ht, hu⟩ hperf
  have hline := perform_line (sound_of_reachable hs₁).placed hperf
  refine ⟨.step hs₁ trivial hperf, hsteps.trans (hline.mono ?_)⟩
  rintro x (rfl | rfl)
  · exact ht
  · exact hu

/-- A task that waits behind another is not taken off the run queues before the
other one has been, in any run in which no message removes one of the two. -/
theorem service_order {cfg : Config} {s s' : NetScheduler} {ops : List Op}
    {t u : TaskId} (hs : Reachable cfg s) (hne : t ≠ u)
    (hahead : [t, u].Sublist (s.runQueue ++ s.runQueueLowPriority))
    (hrun : (netScheduler cfg).Steps (leavesBoth t u) s ops s') :
    ∃ new, served s' = served s ++ new ∧
      (∀ before after, new = before ++ u :: after → t ∈ before) ∧
      (t ∈ new ∨ [t, u].Sublist (s'.runQueue ++ s'.runQueueLowPriority)) :=
  Line.order hne (Or.inl rfl) (Or.inr rfl) (steps_line hs hrun) hahead

/-- Of two tasks of different classes the one of the higher class came later.
The round has a CPU for one of them. -/
theorem service_order_classes :
    ∃ s s', Reachable twoCpus s ∧ s.runQueue = [1] ∧
      s.runQueueLowPriority = [0] ∧
      perform twoCpus (.globalSchedule calmRound) s = .ok ((), s') ∧
      ∃ new, served s' = served s ++ new ∧
        (∀ before after, new = before ++ 0 :: after → 1 ∈ before) ∧
        (1 ∈ new ∨ [1, 0].Sublist (s'.runQueue ++ s'.runQueueLowPriority)) := by
  have hrun : ∃ s s', performAll twoCpus
      [newTask 0 false true "app", newTask 1 true true "EngineThread/0"]
        twoCpusStart = .ok ((), s) ∧
      s.runQueue = [1] ∧ s.runQueueLowPriority = [0] ∧
      perform twoCpus (.globalSchedule calmRound) s = .ok ((), s') :=
    ⟨_, _, rfl, rfl, rfl, rfl⟩
  obtain ⟨s, s', hrun, hq, hl, hround⟩ := hrun
  have hs : Reachable twoCpus s :=
    reach_performAll (.init twoCpusStart_init) (fun _ _ _ => trivial) hrun
  refine ⟨s, s', hs, hq, hl, hround,
    service_order hs (by decide) ?_ (.cons ?_ hround .nil)⟩
  · rw [hq, hl]
    exact List.Sublist.refl _
  · exact ⟨id, id⟩

end GhostDataplane.Agent
