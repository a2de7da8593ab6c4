import GhostDataplane.Proofs.Transactions
import GhostDataplane.Proofs.Turns
import Mathlib.Algebra.Field.Basic
import Mathlib.Algebra.Field.Rat
import Mathlib.Data.Finset.Card

/-!
# The transaction statistics

A transaction is counted in `txn_total_` when it is submitted, and its outcome
when it is reaped. What is submitted for the batched commit waits in `next`
until then, so these balance: the outcomes and the CPUs with a `next` are the
batched transactions, in any state. That is a matter of single moves.

`ReplaceExistingTask` submits as well and counts its transaction, but it knows
the outcome at once and writes it nowhere. So each of its calls leaves the
total one larger for good. Where the total is written the request was opened a
few lines earlier, which is a matter of whole operations: the messages open no
request and do not touch the total, and a turn of a round that opens one
counts it.
-/

namespace GhostDataplane.Agent

open GhostDataplane.Lib

/-- A request for a task was opened for the batched commit. -/
def opensBatch : Event → Bool
  | .opened x => x.batched
  | _ => false

/-- A request for a task was opened by `ReplaceExistingTask`, which commits it
on the spot. -/
def opensSync : Event → Bool
  | .opened x => !x.batched
  | _ => false

/-- These are the CPUs whose `next` is set. -/
def PendingOn (s : NetScheduler) (pending : Finset CpuId) : Prop :=
  ∀ c, c ∈ pending ↔ (s.cpuStates c).next ≠ none

/-! ## Outcomes -/

/-- The transactions whose outcome was counted. -/
def NetScheduler.outcomes (s : NetScheduler) : Nat :=
  s.txnSuccess + s.txnFailUnavail + s.txnFailOther

/-- Every batched transaction was reaped and counted, or is pending. -/
def Reconciled (s : NetScheduler) : Prop :=
  ∃ pending, PendingOn s pending ∧
    s.outcomes + pending.card = s.log.countP opensBatch

section Moves

variable {s s' : NetScheduler}

theorem PendingOn.congr {pending : Finset CpuId} (h : PendingOn s pending)
    (hnext : ∀ c, (s'.cpuStates c).next = (s.cpuStates c).next) :
    PendingOn s' pending := by
  intro c
  rw [h c, hnext c]

/-- A change that no transaction depends on. -/
theorem Reconciled.quiet (h : Reconciled s)
    (hnext : ∀ c, (s'.cpuStates c).next = (s.cpuStates c).next)
    (hout : s'.outcomes = s.outcomes)
    (hlog : s'.log.countP opensBatch = s.log.countP opensBatch) :
    Reconciled s' := by
  obtain ⟨pending, hpending, hbalance⟩ := h
  exact ⟨pending, hpending.congr hnext, by rw [hout, hbalance, hlog]⟩

theorem countP_note {P : Event → Bool} {log : List Event} {e : Event} :
    (log ++ [e]).countP P = log.countP P + if P e then 1 else 0 := by
  rw [List.countP_append, List.countP_singleton]

theorem Reconciled.openBatched {c : CpuId} {t : TaskId} {k : NetTask}
    (h : Reconciled s) (hn : (s.cpuStates c).next = none) :
    Reconciled (s.openBatched c t k) := by
  obtain ⟨pending, hpending, hbalance⟩ := h
  have hc : c ∉ pending := fun hmem => (hpending c).mp hmem hn
  refine ⟨insert c pending, fun d => ?_, ?_⟩
  · by_cases hd : d = c
    · subst hd
      simp [NetScheduler.openBatched, NetScheduler.setNext]
    · have hcpu : (s.openBatched c t k).cpuStates d = s.cpuStates d :=
        setCpu_ne hd
      rw [hcpu, ← hpending d, Finset.mem_insert]
      exact or_iff_right hd
  · have hlog : (s.openBatched c t k).log.countP opensBatch =
        s.log.countP opensBatch + 1 := countP_note
    rw [Finset.card_insert_of_notMem hc, hlog, ← hbalance]
    rfl

theorem reap_outcomes {c : CpuId} {t : TaskId} {st : TxnState} :
    (s.reap c t st).outcomes = s.outcomes + 1 := by
  cases st <;> simp [NetScheduler.reap, NetScheduler.outcomes] <;> omega

theorem Reconciled.reap {c : CpuId} {t : TaskId} {st : TxnState}
    (h : Reconciled s) (hn : (s.cpuStates c).next = some t) :
    Reconciled (s.reap c t st) := by
  obtain ⟨pending, hpending, hbalance⟩ := h
  have hc : c ∈ pending := (hpending c).mpr (by simp [hn])
  refine ⟨pending.erase c, fun d => ?_, ?_⟩
  · by_cases hd : d = c
    · subst hd
      simp [NetScheduler.reap, NetScheduler.setNext]
    · have hcpu : (s.reap c t st).cpuStates d = s.cpuStates d := setCpu_ne hd
      rw [hcpu, ← hpending d, Finset.mem_erase]
      exact and_iff_right hd
  · have hlog : (s.reap c t st).log.countP opensBatch =
        s.log.countP opensBatch := countP_note
    rw [reap_outcomes, hlog, ← hbalance, ← Finset.card_erase_add_one hc]
    omega

theorem Reconciled.move {H H' : Set TaskId} (h : Reconciled s)
    (hm : Move s H s' H') : Reconciled s' := by
  cases hm with
  | reap _ hn _ => exact h.reap hn
  | openBatched _ _ _ hn _ _ _ =>
      exact (h.openBatched hn).quiet (fun _ => rfl) rfl rfl
  | openSync | openUnschedule | handOver | submit =>
      exact h.quiet (fun _ => rfl) rfl countP_note
  | dequeue _ hd =>
      rcases dequeue_some hd with ⟨rest, -, rfl⟩ | ⟨-, rest, -, rfl⟩ <;>
        exact h.quiet (fun _ => rfl) rfl countP_note
  | unqueue _ _ =>
      unfold NetScheduler.unqueue
      split <;> exact h.quiet (fun _ => rfl) rfl rfl
  | vacate _ _ | run _ _ _ _ _ _ _ | switchto =>
      exact h.quiet (next_setCpu rfl) rfl rfl
  | touch | enqueue | yield | block | wake | unyield | poll | countTxn | bump =>
      exact h.quiet (fun _ => rfl) rfl rfl

theorem Reconciled.moves {H H' : Set TaskId} (h : Reconciled s)
    (hm : Moves s H s' H') : Reconciled s' :=
  Moves.preserve (P := fun s _ => Reconciled s) (fun _ _ _ _ h hm => h.move hm)
    hm h

end Moves

theorem reconciled_of_reachable {cfg : Config} {s : NetScheduler}
    (h : Reachable cfg s) : Reconciled s := by
  refine Machine.Reach.invariant (I := Reconciled) ?_ ?_ h
  · rintro s ⟨globalCpu, cpuhist, st, hcon⟩
    obtain ⟨c, -, rfl⟩ := construct_ok hcon
    exact ⟨∅, fun c => by simp [emptyTables], rfl⟩
  · intro s op s' hr hrec _ hperf
    cases perform_step (sound_of_reachable hr).placed hperf with
    | moves _ hm => exact hrec.moves hm
    | new | newRunnable | dead => exact hrec.quiet (fun _ => rfl) rfl rfl
    | departed _ hd =>
        rcases hd with rfl | ⟨c, rfl⟩
        · exact hrec.quiet (fun _ => rfl) rfl rfl
        · exact hrec.quiet (next_setCpu rfl) rfl rfl

/-! ## Totals -/

/-- The total and the number of requests opened for a task. -/
def tally (s : NetScheduler) : Nat × Nat :=
  (s.txnTotal, s.log.countP opensBatch + s.log.countP opensSync)

/-- An entry that is not the opening of a request. -/
theorem tally_note {s s' : NetScheduler} {e : Event}
    (htotal : s'.txnTotal = s.txnTotal) (hlog : s'.log = s.log ++ [e])
    (hbatch : opensBatch e = false) (hsync : opensSync e = false) :
    tally s' = tally s := by
  rw [tally, hlog, countP_note, countP_note, hbatch, hsync, htotal]
  rfl

theorem Reaped.tally {c : CpuId} {s s' : NetScheduler} {b : Bool}
    (h : Reaped c s s' b) : tally s' = tally s := by
  obtain ⟨t, k, st, -, -, -, ⟨-, -, rfl⟩ | ⟨-, -, rfl⟩⟩ := h
  · exact tally_note rfl rfl rfl rfl
  · exact tally_note rfl rfl rfl rfl

theorem Settled.tally {c : CpuId} {s s' : NetScheduler} (h : Settled c s s') :
    tally s' = tally s := by
  rcases h with ⟨-, hpoll, -⟩ | ⟨b, hreap⟩
  · rw [hpoll.eq]
    rfl
  · exact hreap.tally

section Messages

open Checked

theorem deref_tally {t : TaskId} : Keeps tally (deref t) := by
  intro s k s' h
  obtain ⟨k', -, hr⟩ := deref_ok.mp h
  cases hr
  rfl

theorem modifyTask_tally {t : TaskId} {f : NetTask → NetTask} :
    Keeps tally (modifyTask t f) := by
  intro s u s' h
  obtain ⟨k, -, hr⟩ := modifyTask_ok.mp h
  cases hr
  rfl

theorem enqueue_tally {t : TaskId} : Keeps tally (enqueue t) :=
  modifyTask_tally.bind fun _ => deref_tally.bind fun _ =>
    keeps_modify fun _ => rfl

theorem yieldTask_tally {t : TaskId} : Keeps tally (yieldTask t) :=
  deref_tally.bind fun _ => keeps_check.bind fun _ =>
    modifyTask_tally.bind fun _ => keeps_modify fun _ => rfl

theorem updateTaskRuntime_tally {t : TaskId} {r : Nat} {b : Bool} :
    Keeps tally (updateTaskRuntime t r b) :=
  deref_tally.bind fun _ => keeps_check.bind fun _ => modifyTask_tally

theorem cpuEnteringSwitchto_tally {cfg : Config} {cpu : Int} :
    Keeps tally (cpuEnteringSwitchto cfg cpu) :=
  keeps_check.bind fun _ => keeps_check.bind fun _ => keeps_get.bind fun _ =>
    keeps_check.bind fun _ => keeps_modify fun _ => rfl

theorem cpuLeavingSwitchto_tally {cfg : Config} {cpu : Int} :
    Keeps tally (cpuLeavingSwitchto cfg cpu) :=
  keeps_check.bind fun _ => keeps_check.bind fun _ => keeps_get.bind fun _ =>
    keeps_check.bind fun _ => keeps_modify fun _ => rfl

theorem cpuStateOf_tally {t : TaskId} : Keeps tally (cpuStateOf t) := by
  refine deref_tally.bind fun k => ?_
  split
  · exact keeps_throw
  · exact keeps_check.bind fun _ => keeps_get.bind fun _ =>
      keeps_check.bind fun _ => keeps_pure

theorem removeFromRunqueue_tally {t : TaskId} {rs : RunState} :
    Keeps tally (removeFromRunqueue t rs) := by
  refine deref_tally.bind fun _ => keeps_check.bind fun _ =>
    keeps_get.bind fun s => Keeps.bind ?_ fun _ => modifyTask_tally
  split
  · exact keeps_modify fun _ => rfl
  · exact keeps_check.bind fun _ => keeps_modify fun _ => rfl

theorem freeTask_tally {t : TaskId} : Keeps tally (freeTask t) :=
  deref_tally.bind fun _ => keeps_modify fun _ => rfl

theorem syncCpuState_tally {cpu : Option CpuId} {answer : Option TxnState} :
    Keeps tally (syncCpuState cpu answer) := by
  cases cpu with
  | none => exact keeps_throw
  | some c =>
      intro s b s' h
      rcases syncCpuState_cases h with ⟨-, -, rfl⟩ | hreap
      · rfl
      · exact hreap.tally

theorem leaveCpu_tally {t : TaskId} {msg : TaskOffCpuMsg} :
    Keeps tally (leaveCpu t msg) := by
  refine updateTaskRuntime_tally.bind fun _ => cpuStateOf_tally.bind fun c =>
    deref_tally.bind fun k => Keeps.bind ?_ fun _ => keeps_modify fun _ => rfl
  split
  · exact keeps_get.bind fun _ => keeps_check.bind fun _ =>
      keeps_check.bind fun _ => syncCpuState_tally.bind fun _ => keeps_check
  · exact keeps_pure

theorem leaveSwitchto_tally {cfg : Config} {t : TaskId} {msg : TaskOffCpuMsg} :
    Keeps tally (leaveSwitchto cfg t msg) :=
  deref_tally.bind fun _ => keeps_check.bind fun _ =>
    updateTaskRuntime_tally.bind fun _ => cpuLeavingSwitchto_tally

theorem forgetSubmit_tally {t : TaskId} {msg : TaskOffCpuMsg} :
    Keeps tally (forgetSubmit t msg) := by
  unfold forgetSubmit
  split
  · exact keeps_pure
  · exact modifyTask_tally

theorem taskNew_tally {cfg : Config} {t : TaskId} {msg : TaskNewMsg} :
    Keeps tally (taskNew cfg t msg) := by
  refine updateTaskRuntime_tally.bind fun _ => modifyTask_tally.bind fun _ =>
    Keeps.bind ?_ fun _ => ?_
  · split
    · exact enqueue_tally
    · exact keeps_pure
  · split
    · exact keeps_throw
    · exact keeps_check.bind fun _ => modifyTask_tally.bind fun _ =>
        deref_tally.bind fun _ => keeps_check.bind fun _ =>
        modifyTask_tally.bind fun _ => keeps_modify fun _ => rfl

theorem allocate_tally {t : TaskId} {p : Bool} :
    Keeps tally (allocate t p) := by
  intro s u s' h
  rw [(allocate_ok h).2]
  rfl

theorem taskDeparted_tally {cfg : Config} {t : TaskId} {msg : TaskOffCpuMsg} :
    Keeps tally (taskDeparted cfg t msg) := by
  refine Keeps.bind ?_ fun _ => freeTask_tally
  split
  · exact cpuLeavingSwitchto_tally
  · exact keeps_pure

/-- The callbacks for a task that went off its CPU, for one that the agent had
placed, one at the end of a switchto chain and one that is queued. -/
theorem offCpu_tally {t : TaskId} {msg : TaskOffCpuMsg} {f : NetTask → NetTask}
    {placed chained : Sched Unit} {queued : NetTask → Sched Unit}
    (hplaced : Keeps tally placed) (hchained : Keeps tally chained)
    (hqueued : ∀ k, Keeps tally (queued k)) :
    Keeps tally (do
      modifyTask t f
      let k ← deref t
      (if k.runState = .onCpu || k.runState = .pending then placed
      else if msg.fromSwitchto then chained
      else queued k)
      forgetSubmit t msg) := by
  refine modifyTask_tally.bind fun _ => deref_tally.bind fun k =>
    Keeps.bind ?_ fun _ => forgetSubmit_tally
  split
  · exact hplaced
  · split
    · exact hchained
    · exact hqueued k

theorem taskSwitchto_tally {cfg : Config} {t : TaskId} {msg : TaskOffCpuMsg} :
    Keeps tally (taskSwitchto cfg t msg) := by
  refine cpuEnteringSwitchto_tally.bind fun _ => modifyTask_tally.bind fun _ =>
    deref_tally.bind fun k => ?_
  split
  · exact leaveCpu_tally.bind fun _ => modifyTask_tally
  · exact keeps_check.bind fun _ => removeFromRunqueue_tally

/-- No message opens a request or is counted. -/
theorem perform_tally {cfg : Config} {op : Op} (hop : op.isMessage = true) :
    Keeps tally (perform cfg op) := by
  have hqueued : ∀ k : NetTask,
      Keeps tally (check (k.runState = .queued) .queued) := fun _ => keeps_check
  cases op with
  | taskNew => exact allocate_tally.bind fun _ => taskNew_tally
  | taskRunnable =>
      exact modifyTask_tally.bind fun _ => deref_tally.bind fun _ =>
        keeps_check.bind fun _ => keeps_check.bind fun _ =>
        modifyTask_tally.bind fun _ => enqueue_tally
  | taskDead =>
      exact modifyTask_tally.bind fun _ => deref_tally.bind fun _ =>
        keeps_check.bind fun _ => freeTask_tally
  | taskDeparted => exact modifyTask_tally.bind fun _ => taskDeparted_tally
  | taskBlocked =>
      exact modifyTask_tally.bind fun _ => offCpu_tally
        (leaveCpu_tally.bind fun _ => modifyTask_tally) leaveSwitchto_tally
        fun _ => keeps_check.bind fun _ => removeFromRunqueue_tally
  | taskPreempted =>
      exact modifyTask_tally.bind fun _ => offCpu_tally
        (leaveCpu_tally.bind fun _ => enqueue_tally)
        (leaveSwitchto_tally.bind fun _ => enqueue_tally) hqueued
  | taskYield =>
      exact modifyTask_tally.bind fun _ => offCpu_tally
        (leaveCpu_tally.bind fun _ => yieldTask_tally)
        (leaveSwitchto_tally.bind fun _ => yieldTask_tally) hqueued
  | taskSwitchto => exact modifyTask_tally.bind fun _ => taskSwitchto_tally
  | globalSchedule | pickNextGlobalCpu => cases hop

end Messages

/-- Every request that was opened for a task is counted in the total. -/
def Totalled (s : NetScheduler) : Prop :=
  s.txnTotal = s.log.countP opensBatch + s.log.countP opensSync

section Operations

variable {cfg : Config} {s s' : NetScheduler}

theorem Totalled.of_tally (h : Totalled s) (heq : tally s' = tally s) :
    Totalled s' := by
  rw [tally, tally, Prod.mk.injEq] at heq
  rw [Totalled, heq.1, heq.2]
  exact h

/-- Opening a request and counting it. -/
theorem Totalled.opened {x : Txn} (h : Totalled s)
    (htotal : s'.txnTotal = s.txnTotal + 1)
    (hlog : s'.log = s.log ++ [.opened x]) : Totalled s' := by
  rw [Totalled, htotal, hlog, countP_note, countP_note, h]
  cases hb : x.batched <;> simp [opensBatch, opensSync, hb] <;> omega

theorem Totalled.turn {env : RoundEnv} (h : Totalled s)
    (hturn : RoundTurn cfg env s s') : Totalled s' := by
  cases hturn with
  | settled hset => exact h.of_tally hset.tally
  | @assigned n k a a' s₁ _ ht has _ _ =>
      have h₁ : Totalled s₁ := by
        rcases dequeue_some ht.dequeued with
          ⟨rest, -, rfl⟩ | ⟨-, rest, -, rfl⟩ <;>
          exact h.of_tally (tally_note rfl rfl rfl rfl)
      cases has with
      | stale | unplaced => exact h₁.of_tally rfl
      | batched => exact h₁.opened rfl rfl
      | replaced _ _ _ hrep => exact h₁.opened hrep.txnTotal hrep.log
  | submitted => exact h.of_tally (tally_note rfl rfl rfl rfl)
  | requeued | bumped => exact h.of_tally rfl

theorem Totalled.migrated {env : MigrateEnv} {c : CpuId} {s₁ s₂ : NetScheduler}
    (h : Totalled s) (hm : Migrated cfg env s c s₁ s₂ s') : Totalled s' := by
  have h₁ := h.of_tally hm.settled.tally
  have h₂ : Totalled s₂ := by
    cases hm.vacated with
    | idle => exact h₁
    | evicted => exact h₁.of_tally (tally_note rfl rfl rfl rfl)
  rw [hm.handOver]
  exact h₂.of_tally (tally_note rfl rfl rfl rfl)

theorem Totalled.step {op : Op} (h : Totalled s) (hp : Placed s ∅)
    (hperf : perform cfg op s = .ok ((), s')) : Totalled s' := by
  cases op with
  | globalSchedule env =>
      exact globalSchedule_invariant (fun s s' _ h => h.turn) hp h hperf
  | pickNextGlobalCpu env =>
      rcases pickNextGlobalCpu_cases hp hperf with rfl | ⟨c, s₁, s₂, hm⟩
      · exact h
      · exact h.migrated hm
  | _ => exact h.of_tally (perform_tally rfl s () s' hperf)

end Operations

theorem totalled_of_reachable {cfg : Config} {s : NetScheduler}
    (h : Reachable cfg s) : Totalled s := by
  refine Machine.Reach.invariant (I := Totalled) ?_ ?_ h
  · rintro s ⟨globalCpu, cpuhist, st, hcon⟩
    obtain ⟨c, -, rfl⟩ := construct_ok hcon
    rfl
  · intro s op s' hr htotalled _ hperf
    exact htotalled.step (sound_of_reachable hr).placed hperf

/-! ## The balance -/

/-- The percentages add up exactly if the outcomes are all there is. -/
theorem percentOfTotal_add {s : NetScheduler} (hpos : s.txnTotal ≠ 0) :
    s.percentOfTotal s.txnFailUnavail + s.percentOfTotal s.txnSuccess +
        s.percentOfTotal s.txnFailOther = 100 ↔
      s.outcomes = s.txnTotal := by
  have hne : (s.txnTotal : Rat) ≠ 0 := Nat.cast_ne_zero.mpr hpos
  simp only [NetScheduler.percentOfTotal, NetScheduler.outcomes]
  rw [← add_div, ← add_div, div_eq_iff hne]
  norm_cast
  omega

/-- The total is what was reaped, what is pending, and what
`ReplaceExistingTask` submitted; so it balances, and the percentages of
`DumpState` can add up, exactly while no task was evicted. -/
theorem txn_statistics_balance_iff {cfg : Config} {s : NetScheduler}
    (h : CleanReachable cfg s) :
    ∃ pending, PendingOn s pending ∧
      s.txnTotal = s.txnSuccess + s.txnFailUnavail + s.txnFailOther +
        pending.card + s.log.countP opensSync ∧
      (s.txnTotal = s.txnSuccess + s.txnFailUnavail + s.txnFailOther +
          pending.card ↔ ∀ e ∈ s.log, opensSync e = false) ∧
      (s.txnTotal ≠ 0 →
        (s.percentOfTotal s.txnFailUnavail + s.percentOfTotal s.txnSuccess +
            s.percentOfTotal s.txnFailOther = 100 ↔
          pending = ∅ ∧ ∀ e ∈ s.log, opensSync e = false)) := by
  obtain ⟨pending, hpending, hbalance⟩ := reconciled_of_reachable h.reachable
  have htotal := totalled_of_reachable h.reachable
  have hnone : s.log.countP opensSync = 0 ↔
      ∀ e ∈ s.log, opensSync e = false := by
    simp [List.countP_eq_zero]
  rw [Totalled, ← hbalance] at htotal
  refine ⟨pending, hpending, htotal, ?_, fun hpos => ?_⟩
  · rw [← hnone, htotal, NetScheduler.outcomes]
    omega
  · rw [percentOfTotal_add hpos, ← hnone, ← Finset.card_eq_zero]
    omega

/-- A transaction that fails and is tried again. -/
theorem txn_statistics_balance_iff_retry :
    ∃ s pending, CleanReachable twoCpus s ∧ s.txnFailUnavail = 1 ∧
      s.txnSuccess = 1 ∧ PendingOn s pending ∧
      s.txnTotal = s.txnSuccess + s.txnFailUnavail + s.txnFailOther +
        pending.card := by
  have hpass : (performAll twoCpus
      [newTask 0 true true "EngineThread/0", .globalSchedule calmRound,
        .globalSchedule { calmRound with answer := fun _ => some .cpuUnavail },
        .globalSchedule calmRound]).passes twoCpusStart (fun _ s =>
      s.txnFailUnavail == 1 && s.txnSuccess == 1 &&
        s.log.all fun e => !opensSync e) = true := by decide +kernel
  obtain ⟨_, s, hrun, hpass⟩ := Checked.passes_iff.mp hpass
  simp only [Bool.and_eq_true, beq_iff_eq, List.all_eq_true, Bool.not_eq_true']
    at hpass
  obtain ⟨⟨hunavail, hsuccess⟩, hsync⟩ := hpass
  have hreach : CleanReachable twoCpus s :=
    reach_performAll (.init twoCpusStart_init)
      (by simp [newTask, departsBlocked]) hrun
  obtain ⟨pending, hpending, -, hiff, -⟩ := txn_statistics_balance_iff hreach
  exact ⟨s, pending, hreach, hunavail, hsuccess, hpending, hiff.mpr hsync⟩

/-- One task runs and another takes its place: two transactions in the total,
one outcome, and nothing pending. -/
theorem eviction_missing_from_outcomes :
    ∃ s pending, CleanReachable twoCpus s ∧ PendingOn s pending ∧
      s.txnTotal = 2 ∧
      s.txnSuccess + s.txnFailUnavail + s.txnFailOther + pending.card = 1 := by
  have hpass : (performAll twoCpus
      [newTask 0 false true "app", newTask 1 false true "app",
        .globalSchedule calmRound, .globalSchedule calmRound]).passes
      twoCpusStart (fun _ s =>
        s.txnTotal == 2 && s.log.countP opensBatch == 1) = true := by
    decide +kernel
  obtain ⟨_, s, hrun, hpass⟩ := Checked.passes_iff.mp hpass
  simp only [Bool.and_eq_true, beq_iff_eq] at hpass
  have hreach : CleanReachable twoCpus s :=
    reach_performAll (.init twoCpusStart_init)
      (by simp [newTask, departsBlocked]) hrun
  obtain ⟨pending, hpending, hbalance⟩ :=
    reconciled_of_reachable hreach.reachable
  exact ⟨s, pending, hreach, hpending, hpass.1, hbalance.trans hpass.2⟩

end GhostDataplane.Agent
