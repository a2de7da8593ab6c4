import GhostDataplane.Lib.Log
import GhostDataplane.Proofs.Placement

/-!
# One transaction in flight for each CPU

The log tells which batched transaction of a CPU has not been reaped yet:
the last one opened, unless it was reaped since. `unreaped` reads it off, and
the invariant says that `next` is always that transaction's target and that a
CPU without one has a committed request. Both are what the three places that
open a request check or know, so a request is only ever opened for a CPU
whose last transaction has been reaped.
-/

namespace GhostDataplane.Agent

open GhostDataplane.Lib

/-- The target of the batched transaction of `c` that was not reaped before
the event, after it. -/
def reapStep (c : CpuId) (o : Option TaskId) : Event → Option TaskId
  | .opened x => if x.cpu = c ∧ x.batched = true then some x.target else o
  | .reaped d _ _ => if d = c then none else o
  | _ => o

/-- The target of the batched transaction of `c` that was not reaped yet. -/
def unreaped (c : CpuId) (log : List Event) : Option TaskId :=
  log.foldl (reapStep c) none

/-- The rules for the log. A request is opened only when it is committed and
no transaction of its CPU waits to be reaped, and only such a transaction is
reaped. -/
def TxnRule (before : List Event) : Event → Prop
  | .opened x => unreaped x.cpu before = none ∧ x.req.isCommitted = true
  | .unscheduled c _ req => unreaped c before = none ∧ req.isCommitted = true
  | .reaped c t _ => unreaped c before = some t
  | _ => True

def opensBatched (c : CpuId) : Event → Bool
  | .opened x => decide (x.cpu = c) && x.batched
  | _ => false

def reaps (c : CpuId) : Event → Bool
  | .reaped d _ _ => decide (d = c)
  | _ => false

/-- The invariant of the transactions. -/
structure OneTxn (s : NetScheduler) : Prop where
  next : ∀ c, unreaped c s.log = (s.cpuStates c).next
  committed : ∀ c, (s.cpuStates c).next = none → (s.req c).isCommitted = true
  rule : Log.Ok TxnRule s.log
  balance : ∀ c, s.log.countP (opensBatched c) =
    s.log.countP (reaps c) + (unreaped c s.log).toList.length

theorem unreaped_append {c : CpuId} {log : List Event} {e : Event} :
    unreaped c (log ++ [e]) = reapStep c (unreaped c log) e := by
  simp [unreaped]

/-- A change that no transaction depends on. -/
theorem OneTxn.quiet {s s' : NetScheduler} (h : OneTxn s)
    (hlog : s'.log = s.log) (hreq : s'.req = s.req)
    (hnext : ∀ c, (s'.cpuStates c).next = (s.cpuStates c).next) :
    OneTxn s' := by
  refine ⟨fun c => ?_, fun c hc => ?_, hlog ▸ h.rule,
    fun c => hlog ▸ h.balance c⟩
  · rw [hlog, hnext]
    exact h.next c
  · rw [hreq]
    exact h.committed c (hnext c ▸ hc)

/-- An entry that neither opens nor reaps a batched transaction. -/
theorem OneTxn.note {s s' : NetScheduler} {e : Event} (h : OneTxn s)
    (hlog : s'.log = s.log ++ [e])
    (hreq : ∀ c, (s.req c).isCommitted = true → (s'.req c).isCommitted = true)
    (hnext : ∀ c, (s'.cpuStates c).next = (s.cpuStates c).next)
    (hrule : TxnRule s.log e) (hstep : ∀ c o, reapStep c o e = o)
    (hopens : ∀ c, opensBatched c e = false) (hreaps : ∀ c, reaps c e = false) :
    OneTxn s' := by
  have hun : ∀ c, unreaped c s'.log = unreaped c s.log := by
    intro c
    rw [hlog, unreaped_append, hstep]
  refine ⟨fun c => ?_, fun c hc => ?_, ?_, fun c => ?_⟩
  · rw [hun, hnext]
    exact h.next c
  · exact hreq c (h.committed c (hnext c ▸ hc))
  · rw [hlog]
    exact Log.ok_append_singleton.mpr ⟨h.rule, hrule⟩
  · rw [hun, hlog, List.countP_append, List.countP_append, h.balance c]
    simp [hopens, hreaps]

/-- Writing a committed answer keeps committed requests committed. -/
theorem isCommitted_update {s : NetScheduler} {c d : CpuId} {st : TxnState}
    (h : (s.req d).isCommitted = true) :
    (Function.update s.req c (.committed st) d).isCommitted = true := by
  by_cases hd : d = c
  · subst hd
    rw [Function.update_self]
    rfl
  · rw [Function.update_of_ne hd]
    exact h

/-- Opening a batched transaction for an empty CPU. -/
theorem OneTxn.openBatched {s : NetScheduler} {c : CpuId} {t : TaskId}
    {k : NetTask} (h : OneTxn s) (hn : (s.cpuStates c).next = none) :
    OneTxn (s.openBatched c t k) := by
  have hopen : unreaped c s.log = none := (h.next c).trans hn
  have hlog : (s.openBatched c t k).log =
      s.log ++ [.opened ⟨c, t, true, s.cpuStates c, s.req c, k⟩] := rfl
  have hne : ∀ d, d ≠ c →
      ((s.openBatched c t k).cpuStates d) = s.cpuStates d := fun d hd =>
    setCpu_ne hd
  have hself : ((s.openBatched c t k).cpuStates c).next = some t :=
    congrArg CpuState.next (setCpu_self s c _)
  refine ⟨fun d => ?_, fun d hd => ?_, ?_, fun d => ?_⟩
  · rw [hlog, unreaped_append]
    by_cases hd : d = c
    · subst hd
      rw [hself]
      simp [reapStep]
    · rw [hne d hd]
      simp [reapStep, Ne.symm hd, h.next d]
  · by_cases hdc : d = c
    · subst hdc
      rw [hself] at hd
      cases hd
    · have hreq : (s.openBatched c t k).req d = s.req d :=
        Function.update_of_ne hdc _ _
      rw [hreq]
      exact h.committed d (hne d hdc ▸ hd)
  · rw [hlog]
    exact Log.ok_append_singleton.mpr ⟨h.rule, hopen, h.committed c hn⟩
  · rw [hlog, unreaped_append, List.countP_append, List.countP_append,
      h.balance d]
    by_cases hd : d = c
    · subst hd
      simp [reapStep, opensBatched, reaps, hopen]
    · simp [reapStep, opensBatched, reaps, Ne.symm hd]

theorem OneTxn.reap {s : NetScheduler} {c : CpuId} {t : TaskId}
    {st : TxnState} (h : OneTxn s) (hn : (s.cpuStates c).next = some t) :
    OneTxn (s.reap c t st) := by
  have hopen : unreaped c s.log = some t := (h.next c).trans hn
  have hlog : (s.reap c t st).log = s.log ++ [.reaped c t st] := rfl
  have hne : ∀ d, d ≠ c → ((s.reap c t st).cpuStates d) = s.cpuStates d :=
    fun d hd => setCpu_ne hd
  have hself : ((s.reap c t st).cpuStates c).next = none :=
    congrArg CpuState.next (setCpu_self s c _)
  refine ⟨fun d => ?_, fun d hd => ?_, ?_, fun d => ?_⟩
  · rw [hlog, unreaped_append]
    by_cases hd : d = c
    · subst hd
      rw [hself]
      simp [reapStep]
    · rw [hne d hd]
      simp [reapStep, Ne.symm hd, h.next d]
  · by_cases hdc : d = c
    · subst hdc
      have hreq : (s.reap d t st).req d = .committed st :=
        Function.update_self d _ _
      rw [hreq]
      rfl
    · have hreq : (s.reap c t st).req d = s.req d :=
        Function.update_of_ne hdc _ _
      rw [hreq]
      exact h.committed d (hne d hdc ▸ hd)
  · rw [hlog]
    exact Log.ok_append_singleton.mpr ⟨h.rule, hopen⟩
  · rw [hlog, unreaped_append, List.countP_append, List.countP_append,
      h.balance d]
    by_cases hd : d = c
    · subst hd
      simp [reapStep, opensBatched, reaps, hopen]
    · simp [reapStep, opensBatched, reaps, Ne.symm hd]

theorem next_setCpu {s : NetScheduler} {c : CpuId} {cs : CpuState}
    (hcs : cs.next = (s.cpuStates c).next) (d : CpuId) :
    ((s.setCpu c cs).cpuStates d).next = (s.cpuStates d).next := by
  by_cases hd : d = c
  · subst hd
    rw [setCpu_self, hcs]
  · rw [setCpu_ne hd]

theorem OneTxn.move {s s' : NetScheduler} {H H' : Set TaskId} (h : OneTxn s)
    (hm : Move s H s' H') : OneTxn s' := by
  cases hm with
  | reap _ hn _ => exact h.reap hn
  | openBatched _ _ _ hn _ _ _ =>
      exact (h.openBatched hn).quiet rfl rfl fun _ => rfl
  | openSync hn =>
      exact h.note rfl (fun d hd => isCommitted_update hd) (fun _ => rfl)
        ⟨(h.next _).trans hn, h.committed _ hn⟩ (fun _ _ => by simp [reapStep])
        (fun _ => by simp [opensBatched]) fun _ => rfl
  | openUnschedule hn =>
      exact h.note rfl (fun d hd => isCommitted_update hd) (fun _ => rfl)
        ⟨(h.next _).trans hn, h.committed _ hn⟩ (fun _ _ => rfl) (fun _ => rfl)
        fun _ => rfl
  | dequeue _ hd =>
      rcases dequeue_some hd with ⟨rest, -, rfl⟩ | ⟨-, rest, -, rfl⟩ <;>
        exact h.note rfl (fun _ hc => hc) (fun _ => rfl) trivial
          (fun _ _ => rfl) (fun _ => rfl) fun _ => rfl
  | unqueue _ _ =>
      unfold NetScheduler.unqueue
      split <;> exact h.quiet rfl rfl fun _ => rfl
  | vacate _ _ | run _ _ _ _ _ _ _ | switchto =>
      exact h.quiet rfl rfl (next_setCpu rfl)
  | poll _ _ =>
      exact ⟨h.next, fun d hd => isCommitted_update (h.committed d hd), h.rule,
        h.balance⟩
  | handOver _ _ | submit =>
      exact h.note rfl (fun _ hc => hc) (fun _ => rfl) trivial
        (fun _ _ => rfl) (fun _ => rfl) fun _ => rfl
  | touch | enqueue | yield | block | wake | unyield | countTxn | bump =>
      exact h.quiet rfl rfl fun _ => rfl

theorem OneTxn.moves {s s' : NetScheduler} {H H' : Set TaskId} (h : OneTxn s)
    (hm : Moves s H s' H') : OneTxn s' :=
  Moves.preserve (P := fun s _ => OneTxn s) (fun _ _ _ _ h hm => h.move hm) hm h

theorem oneTxn_of_reachable {cfg : Config} {s : NetScheduler}
    (h : Reachable cfg s) : OneTxn s := by
  refine Machine.Reach.invariant (I := OneTxn) ?_ ?_ h
  · rintro s ⟨globalCpu, cpuhist, st, hcon⟩
    obtain ⟨c, -, rfl⟩ := construct_ok hcon
    exact ⟨fun _ => rfl, fun _ _ => rfl, Log.ok_nil, fun _ => rfl⟩
  · intro s op s' hr htxn _ hperf
    cases perform_step (sound_of_reachable hr).placed hperf with
    | moves _ hm => exact htxn.moves hm
    | new | newRunnable | dead => exact htxn.quiet rfl rfl fun _ => rfl
    | departed _ hd =>
        rcases hd with rfl | ⟨c, rfl⟩
        · exact htxn.quiet rfl rfl fun _ => rfl
        · exact htxn.quiet rfl rfl (next_setCpu rfl)

/-! ## A pending request is in flight

A transaction that is found committed is reaped by the operation that found
it, so between operations a CPU with a `next` has not been answered yet, as
far as the scheduler knows. -/

def InFlight (s : NetScheduler) : Prop :=
  ∀ c t, (s.cpuStates c).next = some t → s.req c = .inFlight

theorem InFlight.quiet {s s' : NetScheduler} (h : InFlight s)
    (hreq : s'.req = s.req)
    (hnext : ∀ c, (s'.cpuStates c).next = (s.cpuStates c).next) :
    InFlight s' := by
  intro c t hn
  rw [hreq]
  exact h c t (hnext c ▸ hn)

/-- A change to the request of `c` and to no other. -/
theorem InFlight.update {s s' : NetScheduler} {c : CpuId} {r : RunRequest}
    (h : InFlight s) (hreq : s'.req = Function.update s.req c r)
    (hnext : ∀ d, d ≠ c → (s'.cpuStates d).next = (s.cpuStates d).next)
    (hself : (s'.cpuStates c).next = none ∨ r = .inFlight) : InFlight s' := by
  intro d t hn
  rw [hreq]
  by_cases hd : d = c
  · subst hd
    rw [Function.update_self]
    exact hself.resolve_left (by simp [hn])
  · rw [Function.update_of_ne hd]
    exact h d t (hnext d hd ▸ hn)

theorem InFlight.move {s s' : NetScheduler} {H H' : Set TaskId}
    (h : InFlight s) (hm : Move s H s' H') : InFlight s' := by
  cases hm with
  | @reap _ _ _ c _ _ _ _ =>
      exact h.update rfl (fun d hd => congrArg CpuState.next (setCpu_ne hd))
        (Or.inl (congrArg CpuState.next (setCpu_self s c _)))
  | openBatched =>
      exact h.update rfl (fun d hd => congrArg CpuState.next (setCpu_ne hd))
        (Or.inr rfl)
  | openSync hn | openUnschedule hn | poll hn _ =>
      exact h.update rfl (fun _ _ => rfl) (Or.inl hn)
  | dequeue _ hd =>
      rcases dequeue_some hd with ⟨rest, -, rfl⟩ | ⟨-, rest, -, rfl⟩ <;>
        exact h.quiet rfl fun _ => rfl
  | unqueue _ _ =>
      unfold NetScheduler.unqueue
      split <;> exact h.quiet rfl fun _ => rfl
  | vacate _ _ | run _ _ _ _ _ _ _ | switchto =>
      exact h.quiet rfl (next_setCpu rfl)
  | touch | enqueue | yield | block | wake | unyield | handOver | submit
  | countTxn | bump => exact h.quiet rfl fun _ => rfl

theorem InFlight.moves {s s' : NetScheduler} {H H' : Set TaskId}
    (h : InFlight s) (hm : Moves s H s' H') : InFlight s' :=
  Moves.preserve (P := fun s _ => InFlight s) (fun _ _ _ _ h hm => h.move hm)
    hm h

theorem inFlight_of_reachable {cfg : Config} {s : NetScheduler}
    (h : Reachable cfg s) : InFlight s := by
  refine Machine.Reach.invariant (I := InFlight) ?_ ?_ h
  · rintro s ⟨globalCpu, cpuhist, st, hcon⟩ c t hn
    obtain ⟨c, -, rfl⟩ := construct_ok hcon
    cases hn
  · intro s op s' hr hfl _ hperf
    cases perform_step (sound_of_reachable hr).placed hperf with
    | moves _ hm => exact hfl.moves hm
    | new | newRunnable | dead => exact hfl.quiet rfl fun _ => rfl
    | departed _ hd =>
        rcases hd with rfl | ⟨c, rfl⟩
        · exact hfl.quiet rfl fun _ => rfl
        · exact hfl.quiet rfl (next_setCpu rfl)

/-- What reaping a transaction does with its target. -/
def ReapOutcome (c : CpuId) (t : TaskId) (s s' : NetScheduler) (b : Bool) :
    Prop :=
  (s'.cpuStates c).next = none ∧
    ((b = true ∧ (s'.cpuStates c).current = some t ∧
        s'.log = s.log ++ [.reaped c t .complete]) ∨
      (b = false ∧ t ∈ s'.runQueue ++ s'.runQueueLowPriority ∧
        ∃ st, st ≠ .complete ∧ s'.log = s.log ++ [.reaped c t st]))

theorem reapedFail_queued {s : NetScheduler} {c : CpuId} {t : TaskId}
    {k : NetTask} {st : TxnState} :
    t ∈ (reapedFail s c t k st).runQueue ++
      (reapedFail s c t k st).runQueueLowPriority := by
  simp only [reapedFail, NetScheduler.push, List.mem_append]
  split
  · exact Or.inl (mem_pushEnd.mpr (Or.inl rfl))
  · exact Or.inr (mem_pushEnd.mpr (Or.inl rfl))

theorem syncCpuState_outcome {c : CpuId} {answer : Option TxnState}
    {s s' : NetScheduler} {b : Bool} {t : TaskId}
    (h : syncCpuState (some c) answer s = .ok (b, s'))
    (hn : (s.cpuStates c).next = some t) : ReapOutcome c t s s' b := by
  rcases syncCpuState_cases h with ⟨hnone, -⟩ | hreap
  · rw [hn] at hnone
    cases hnone
  · refine ⟨hreap.next, ?_⟩
    obtain ⟨t', k, st, hn', -, -, hcase⟩ := hreap
    cases hn.symm.trans hn'
    rcases hcase with ⟨rfl, rfl, rfl⟩ | ⟨hst, rfl, rfl⟩
    · exact Or.inl ⟨rfl, congrArg CpuState.current (setCpu_self _ c _), rfl⟩
    · exact Or.inr ⟨rfl, reapedFail_queued, st, hst, rfl⟩

/-- In every run whose tasks depart while blocked, a request is opened only
when it is committed and the last batched transaction of its CPU has been
reaped; a CPU has as many batched transactions as it has reaped ones, and one
more if `next` is set; and reaping makes the target current or queues it. -/
theorem one_transaction_in_flight {cfg : Config} {s : NetScheduler}
    (h : CleanReachable cfg s) :
    Log.Ok TxnRule s.log ∧
    (∀ c, unreaped c s.log = (s.cpuStates c).next ∧
      s.log.countP (opensBatched c) =
        s.log.countP (reaps c) + (unreaped c s.log).toList.length) ∧
    ∀ c answer s₁ b s₂ t, syncCpuState (some c) answer s₁ = .ok (b, s₂) →
      (s₁.cpuStates c).next = some t → ReapOutcome c t s₁ s₂ b := by
  have htxn := oneTxn_of_reachable h.reachable
  exact ⟨htxn.rule, fun c => ⟨htxn.next c, htxn.balance c⟩,
    fun c answer s₁ b s₂ t hsync hn => syncCpuState_outcome hsync hn⟩

/-- A transaction that stays uncommitted for a round is reaped in the next. -/
theorem one_transaction_in_flight_late :
    ∃ s, CleanReachable twoCpus s ∧ s.log.countP (opensBatched 1) = 1 ∧
      s.log.countP (reaps 1) = 1 ∧ (s.cpuStates 1).current = some 0 ∧
      Log.Ok TxnRule s.log := by
  have hrun : ∃ s, performAll twoCpus
      [newTask 0 true true "EngineThread/0", .globalSchedule calmRound,
        .globalSchedule { calmRound with answer := fun _ => none },
        .globalSchedule calmRound] twoCpusStart = .ok ((), s) ∧
      s.log.countP (opensBatched 1) = 1 ∧ s.log.countP (reaps 1) = 1 ∧
      (s.cpuStates 1).current = some 0 := ⟨_, rfl, rfl, rfl, rfl⟩
  obtain ⟨s, hrun, hopens, hreaps, hcur⟩ := hrun
  have hreach : CleanReachable twoCpus s :=
    reach_performAll (.init twoCpusStart_init)
      (by simp [newTask, departsBlocked]) hrun
  exact ⟨s, hreach, hopens, hreaps, hcur, (one_transaction_in_flight hreach).1⟩

end GhostDataplane.Agent
