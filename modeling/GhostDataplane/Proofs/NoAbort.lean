import GhostDataplane.Proofs.Loop
import GhostDataplane.Proofs.Placement

/-!
# The scheduler's own operations do not stop

In the runs whose tasks depart while blocked, everything the tables refer to
is live and in its place, and that is all that the assertions of a round and
of a migration ask for. Two of them also ask something of the outside: an
eviction that succeeds checks that the status word's runtime is not behind
the recorded one, and a migration checks that its unschedule commit succeeds.

That the assignment loop ends is `turn_variant`.
-/

namespace GhostDataplane.Agent

open GhostDataplane.Lib

/-! ## What the tables refer to is live -/

theorem Intact.live_of_at {s : NetScheduler} {t : TaskId} (h : Intact s)
    (hat : ¬ At s t .nowhere) : ∃ k, s.task t = .live k := by
  by_contra hnone
  exact hat (h t fun k hk => hnone ⟨k, hk⟩).nowhere

theorem Intact.next {s : NetScheduler} {t : TaskId} {c : CpuId} (h : Intact s)
    (hn : (s.cpuStates c).next = some t) : ∃ k, s.task t = .live k :=
  h.live_of_at fun hat => (at_nowhere_iff.mp hat).next c hn

theorem Intact.current {s : NetScheduler} {t : TaskId} {c : CpuId}
    (h : Intact s) (hc : (s.cpuStates c).current = some t) :
    ∃ k, s.task t = .live k :=
  h.live_of_at fun hat => (at_nowhere_iff.mp hat).current c hc

theorem Intact.queued {s : NetScheduler} {t : TaskId} (h : Intact s)
    (ht : t ∈ s.runQueue ++ s.runQueueLowPriority) :
    ∃ k, s.task t = .live k := by
  refine h.live_of_at fun hat => ?_
  rcases List.mem_append.mp ht with ht | ht
  · exact (at_nowhere_iff.mp hat).runQueue ht
  · exact (at_nowhere_iff.mp hat).lowPriority ht

theorem Intact.yielding {s : NetScheduler} {t : TaskId} (h : Intact s)
    (ht : t ∈ s.yieldingTasks) : ∃ k, s.task t = .live k :=
  h.live_of_at fun hat => (at_nowhere_iff.mp hat).yielding ht

/-! ## Reaping -/

theorem committed_succeeds {c : CpuId} {answer : Option TxnState}
    {s : NetScheduler} : (committed c answer).Succeeds s := by
  unfold Checked.Succeeds committed
  split <;> exact ⟨_, rfl⟩

theorem Polled.placed {c : CpuId} {s s' : NetScheduler} {H : Set TaskId}
    (h : Polled c s s') (hp : Placed s H) : Placed s' H := by
  rw [h.eq]
  exact hp.quiet rfl rfl rfl rfl fun _ => ⟨rfl, rfl⟩

theorem Polled.intact {c : CpuId} {s s' : NetScheduler} (h : Polled c s s')
    (hi : Intact s) : Intact s' := by
  intro t ht
  rw [h.eq] at ht ⊢
  have hat := (hi t ht).nowhere
  exact ⟨ht, ⟨hat.queue, hat.yielding, hat.next, hat.current⟩⟩

/-- A request that was found committed can be reaped. -/
theorem syncCpuState_succeeds_of {c : CpuId} {answer : Option TxnState}
    {s s₁ : NetScheduler} (hp : Placed s ∅) (hi : Intact s)
    (hcom : committed c answer s = .ok (true, s₁)) :
    (syncCpuState (some c) answer).Succeeds s₁ := by
  obtain ⟨hpoll, hst, -⟩ := committed_ok hcom
  obtain ⟨st, hst⟩ := hst rfl
  refine syncCpuState_succeeds fun t hn => ?_
  obtain ⟨k, hk⟩ := (hpoll.intact hi).next hn
  obtain ⟨-, hpend, -⟩ := (hpoll.placed hp).at_next hk hn
  exact ⟨k, st, hk, by simp [hpend], hst⟩

theorem classify_succeeds {env : RoundEnv} {c : CpuId} {a : Scan}
    {s : NetScheduler} (hi : Intact s) : (classify env c a).Succeeds s := by
  unfold classify
  rw [Checked.succeeds_bind_get]
  cases hcur : (s.cpuStates c).current with
  | none =>
      simp only []
      split <;> exact Checked.succeeds_pure
  | some t =>
      obtain ⟨k, hk⟩ := hi.current hcur
      simp only []
      rw [succeeds_bind_deref hk]
      split <;> exact Checked.succeeds_pure

theorem scanCpu_succeeds {env : RoundEnv} {c : CpuId} {a : Scan}
    {s : NetScheduler} (hp : Placed s ∅) (hi : Intact s) :
    (scanCpu env c a).Succeeds s := by
  unfold scanCpu
  rw [Checked.succeeds_bind_get]
  split
  · refine Checked.Succeeds.bind ?_ fun _ _ _ => Checked.succeeds_pure
    split
    · refine committed_succeeds.bind fun done s₁ hcom => ?_
      cases done with
      | true =>
          exact (syncCpuState_succeeds_of hp hi hcom).bind
            fun _ _ _ => Checked.succeeds_pure
      | false => exact Checked.succeeds_pure
    · exact Checked.succeeds_pure
  · split
    · exact Checked.succeeds_pure
    · refine committed_succeeds.bind fun done s₁ hcom => ?_
      cases done with
      | true =>
          refine (syncCpuState_succeeds_of hp hi hcom).bind
            fun b s₂ hsync => classify_succeeds ?_
          exact hi.moves ((settled_of hcom hsync).moves hp)
      | false => exact Checked.succeeds_pure

theorem scanCpus_succeeds {env : RoundEnv} {cs : List CpuId} {a : Scan}
    {s : NetScheduler} (hp : Placed s ∅) (hi : Intact s) :
    (scanCpus env cs a).Succeeds s := by
  induction cs generalizing a s with
  | nil => exact Checked.succeeds_pure
  | cons c cs ih =>
      refine (scanCpu_succeeds hp hi).bind fun a₁ s₁ hstep => ?_
      have hm := (scanCpu_cases hstep).moves hp
      exact ih (hp.moves hm) (hi.moves hm)

/-! ## Runtimes -/

/-- No recorded runtime is ahead of the status word. -/
def RuntimeLe (env : RoundEnv) (s : NetScheduler) : Prop :=
  ∀ t k, s.task t = .live k → k.runtime ≤ env.swRuntime t

theorem RuntimeLe.setTask {env : RoundEnv} {s s' : NetScheduler} {t : TaskId}
    {k : NetTask} (h : RuntimeLe env s) (hk : k.runtime ≤ env.swRuntime t)
    (hs : s'.task = (s.setTask t k).task) : RuntimeLe env s' := by
  intro u ku hu
  rw [hs] at hu
  by_cases hut : u = t
  · subst hut
    rw [setTask_task_self] at hu
    cases hu
    exact hk
  · rw [setTask_task_ne hut] at hu
    exact h u ku hu

/-- Reaping leaves a task's runtime and its sequence number alone. -/
theorem Settled.record {c : CpuId} {s s' : NetScheduler} {t : TaskId}
    {k' : NetTask} (h : Settled c s s') (hk' : s'.task t = .live k') :
    ∃ k, s.task t = .live k ∧ k'.runtime = k.runtime ∧
      k'.seqnum = k.seqnum := by
  rcases h with ⟨-, hpoll, -⟩ | ⟨b, u, k, st, -, hk, -, hcase⟩
  · rw [hpoll.eq] at hk'
    exact ⟨k', hk', rfl, rfl⟩
  · by_cases htu : t = u
    · subst htu
      refine ⟨k, hk, ?_⟩
      rcases hcase with ⟨-, -, rfl⟩ | ⟨-, -, rfl⟩ <;>
        cases (setTask_task_self _ _ _).symm.trans hk' <;> exact ⟨rfl, rfl⟩
    · refine ⟨k', ?_, rfl, rfl⟩
      rcases hcase with ⟨-, -, rfl⟩ | ⟨-, -, rfl⟩ <;>
        exact (setTask_task_ne htu).symm.trans hk'

theorem scanCpus_record {env : RoundEnv} {cs : List CpuId} {a a' : Scan}
    {s s' : NetScheduler} {t : TaskId} {k' : NetTask}
    (h : scanCpus env cs a s = .ok (a', s')) (hk' : s'.task t = .live k') :
    ∃ k, s.task t = .live k ∧ k'.runtime = k.runtime ∧
      k'.seqnum = k.seqnum := by
  refine scanCpus_invariant (I := fun s' => ∀ t k', s'.task t = .live k' →
    ∃ k, s.task t = .live k ∧ k'.runtime = k.runtime ∧ k'.seqnum = k.seqnum)
    ?_ (fun t k' hk' => ⟨k', hk', rfl, rfl⟩) h t k' hk'
  intro c _ s₁ a₁ s₂ a₂ hrec hstep t k₂ hk₂
  rcases hstep.same_or_settled with rfl | hset
  · exact hrec t k₂ hk₂
  · obtain ⟨k₁, hk₁, hrun, hseq⟩ := hset.record hk₂
    obtain ⟨k, hk, hrun', hseq'⟩ := hrec t k₁ hk₁
    exact ⟨k, hk, hrun.trans hrun', hseq.trans hseq'⟩

theorem scanCpus_runtimeLe {env : RoundEnv} {cs : List CpuId} {a a' : Scan}
    {s s' : NetScheduler} (h : scanCpus env cs a s = .ok (a', s'))
    (hr : RuntimeLe env s) : RuntimeLe env s' := by
  intro t k' hk'
  obtain ⟨k, hk, hrun, -⟩ := scanCpus_record h hk'
  rw [hrun]
  exact hr t k hk

theorem Replaced.runtimeLe {env : RoundEnv} {s s' : NetScheduler} {c : CpuId}
    {p n : TaskId} {k kn : NetTask} {st : TxnState} {now : Int}
    (h : Replaced s c n kn st env.swRuntime now p k s')
    (hn : s.task n = .live kn) (hr : RuntimeLe env s) : RuntimeLe env s' := by
  rcases h.result with ⟨-, rfl⟩ | ⟨-, rfl⟩
  · have hp :
        RuntimeLe env (s.setTask p { (k.ranUntil (env.swRuntime p)).evicted
        with runState := .queued }) := hr.setTask (Nat.le_refl _) rfl
    exact hp.setTask (k := { kn with
      runState := .onCpu, cpu := some c, prioBoost := false
      preempted := false, startSubmit := some now }) (hr n kn hn) rfl
  · have hp : RuntimeLe env (s.setTask p { k.evicted with
        runState := .queued }) := hr.setTask (by exact hr p k h.live) rfl
    exact hp.setTask (k := { kn with
      runState := .yielding, startSubmit := some now }) (hr n kn hn) rfl

theorem AssignStep.runtimeLe {cfg : Config} {env : RoundEnv} {n : TaskId}
    {k : NetTask} {s s₁ s' : NetScheduler} {a a' : Assign}
    (h : AssignStep cfg env n k s₁ a s' a') (ht : Taken s n k s₁)
    (hr : RuntimeLe env s) : RuntimeLe env s' := by
  have hr₁ : RuntimeLe env s₁ := by
    intro u ku hu
    rw [ht.task] at hu
    exact hr u ku hu
  have hk := hr₁ n k ht.live
  cases h with
  | stale | unplaced =>
      exact hr₁.setTask (k := { k with runState := .yielding }) hk rfl
  | @batched c =>
      exact hr₁.setTask (k := k.submitted c (env.submitTime n)) hk rfl
  | replaced _ _ _ hrep => exact hrep.runtimeLe ht.live hr₁

/-! ## The loop ends -/

theorem yieldTask_succeeds {t : TaskId} {k : NetTask} {s : NetScheduler}
    (hk : s.task t = .live k) (hq : k.runState = .queued) :
    (yieldTask t).Succeeds s :=
  ⟨((), _), yieldTask_ok.mpr ⟨k, hk, Or.inr (Or.inl hq), rfl⟩⟩

/-- A turn of the loop succeeds on what the scan offered. -/
theorem assignTask_succeeds {cfg : Config} {env : RoundEnv} {n : TaskId}
    {k : NetTask} {s₀ s : NetScheduler} {a : Assign} (hk : s.task n = .live k)
    (hq : k.runState = .queued) (hp : Placed s (insert n ∅)) (hi : Intact s)
    (hr : RuntimeLe env s)
    (ho : Offers cfg env s₀ s a.availCpus a.availCpusLowPriority) :
    (assignTask cfg env n a).Succeeds s := by
  unfold assignTask
  rw [succeeds_bind_deref hk, succeeds_bind_check (by simp [hq])]
  split
  · exact (yieldTask_succeeds hk hq).bind fun _ _ _ => Checked.succeeds_pure
  · split
    · next c hpick =>
        have hid := ho.idle c (pickNextCpu_mem hpick).1
        have hidle : (assignIdle env c n).Succeeds s :=
          ⟨((), _), (assignIdle_ok hk).mpr ⟨hid.next, hid.current, rfl⟩⟩
        exact hidle.bind fun _ _ _ => Checked.succeeds_pure
    · split
      · next c hpick =>
          obtain ⟨p, -, hcur⟩ :=
            (ho.candidate c (pickNextCpu_mem hpick).1).reaped
          obtain ⟨kp, hkp⟩ := hi.current hcur
          obtain ⟨-, hon, hcpu⟩ := hp.at_current hkp hcur
          have hrep : (replaceExistingTask c n (env.commit c) env.swRuntime
              (env.submitTime n)).Succeeds s := by
            by_cases hst : env.commit c = .complete
            · exact ⟨((), _),
                (replaceExistingTask_ok hcur hkp hon hcpu hk hq).mpr
                (Or.inl ⟨hst, hr p kp hkp, rfl⟩)⟩
            · exact ⟨((), _),
                (replaceExistingTask_ok hcur hkp hon hcpu hk hq).mpr
                (Or.inr ⟨hst, rfl⟩)⟩
          exact hrep.bind fun _ _ _ => Checked.succeeds_pure
      · exact (yieldTask_succeeds hk hq).bind fun _ _ _ => Checked.succeeds_pure

theorem assignLoop_succeeds {cfg : Config} {env : RoundEnv} {fuel : Nat}
    {a : Assign} {s₀ s : NetScheduler} (hp : Placed s ∅) (hi : Intact s)
    (hr : RuntimeLe env s)
    (ho : Offers cfg env s₀ s a.availCpus a.availCpusLowPriority)
    (hfuel : turnsLeft s a < fuel) :
    (assignLoop cfg env fuel a).Succeeds s := by
  induction fuel generalizing a s with
  | zero => exact absurd hfuel (Nat.not_lt_zero _)
  | succ fuel ih =>
      unfold assignLoop
      split
      · exact Checked.succeeds_pure
      · have hdeq : dequeue.Succeeds s := by
          unfold Checked.Succeeds dequeue
          split
          · exact ⟨_, rfl⟩
          · split <;> exact ⟨_, rfl⟩
        refine hdeq.bind fun next s₁ hd => ?_
        cases next with
        | none => exact Checked.succeeds_pure
        | some n =>
            obtain ⟨k, hk⟩ := hi.queued (dequeue_mem hd)
            have hk₁ : s₁.task n = .live k := (dequeue_task hd) ▸ hk
            have ht := taken_of_dequeue hp hd hk₁
            have hmd : Moves s ∅ s₁ (insert n ∅) := (Move.dequeue hk hd).moves
            have hr₁ : RuntimeLe env s₁ := by
              intro u ku hu
              exact hr u ku (dequeue_task hd ▸ hu)
            refine (assignTask_succeeds hk₁ ht.queued ht.placed
              (hi.moves hmd) hr₁
              (ht.offers ho)).bind fun a₁ s₂ hassign => ?_
            have has := assignTask_cases ht.placed hk₁ ht.queued hassign
            have hm := has.moves ht
            have hless := turn_variant hd hassign
            exact ih (hp.moves hm) (hi.moves hm) (has.runtimeLe ht hr)
              (AssignStep.offers ht has ho) (by omega)

/-! ## The round -/

theorem requeue_succeeds {ts : List TaskId} {s : NetScheduler}
    (hp : Placed { s with yieldingTasks := ts } ∅)
    (hi : Intact { s with yieldingTasks := ts }) : (requeue ts).Succeeds s := by
  induction ts generalizing s with
  | nil => exact Checked.succeeds_pure
  | cons t ts ih =>
      obtain ⟨k, hk⟩ := hi.yielding (t := t) (by simp)
      obtain ⟨htH, hy⟩ := hp.yielding_of_mem (t := t) hk (by simp)
      have hm₁ : Move { s with yieldingTasks := t :: ts } ∅
          { s with yieldingTasks := ts } (insert t ∅) := .unyield hk rfl
      have hm₂ := Move.enqueue (s := { s with yieldingTasks := ts }) hk
        (Set.mem_insert t ∅)
      rw [insert_diff htH] at hm₂
      have hm := hm₁.moves.trans hm₂.moves
      unfold requeue
      rw [succeeds_bind_deref (by exact hk), succeeds_bind_check (by simp [hy]),
        Checked.succeeds_bind (enqueue_eq (by exact hk))]
      exact ih (hp.moves hm) (hi.moves hm)

theorem globalSchedule_succeeds {cfg : Config} {env : RoundEnv}
    {s : NetScheduler} (hp : Placed s ∅) (hi : Intact s)
    (hr : RuntimeLe env s) : (globalSchedule cfg env).Succeeds s := by
  unfold globalSchedule
  refine (scanCpus_succeeds hp hi).bind fun scan s₁ hscan => ?_
  have hm₁ := scanCpus_moves hp hscan
  have hp₁ := hp.moves hm₁
  have hi₁ := hi.moves hm₁
  rw [Checked.succeeds_bind_get]
  refine (assignLoop_succeeds hp₁ hi₁ (scanCpus_runtimeLe hscan hr)
    (scan_offers hscan) (Nat.lt_succ_self _)).bind fun a s₂ hloop => ?_
  have hm₂ := assignLoop_moves hp₁ hloop
  have hsub : ∀ s₃ u, (if a.assignedCpus.isEmpty then pure ()
      else Checked.modify fun s => s.note (.submitted a.assignedCpus) :
        Sched Unit) s₂ = .ok (u, s₃) → Moves s₂ ∅ s₃ ∅ := by
    intro s₃ u h
    split at h
    · cases Checked.pure_ok.mp h
      exact .refl
    · cases Checked.modify_ok.mp h
      exact Move.submit.moves
  refine Checked.Succeeds.bind ?_ fun u s₃ hs₃ => ?_
  · split
    · exact Checked.succeeds_pure
    · exact Checked.succeeds_modify
  · have hm₃ := hm₂.trans (hsub s₃ u hs₃)
    rw [Checked.succeeds_bind_get]
    refine (requeue_succeeds (hp₁.moves hm₃) (hi₁.moves hm₃)).bind
      fun _ _ _ => ?_
    rw [Checked.succeeds_bind_modify]
    exact Checked.succeeds_modify

/-! ## The migration -/

section Migration

variable {cfg : Config} {env : MigrateEnv} {g c : CpuId} {s : NetScheduler}

theorem tryHome_succeeds (hp : Placed s ∅) (hi : Intact s) :
    (tryHome env g c).Succeeds s := by
  unfold tryHome
  rw [Checked.succeeds_bind_get]
  split
  · refine committed_succeeds.bind fun done s₁ hcom => ?_
    cases done with
    | true =>
        exact (syncCpuState_succeeds_of hp hi hcom).bind
          fun _ _ _ => Checked.succeeds_pure
    | false => exact Checked.succeeds_pure
  · exact Checked.succeeds_pure

theorem tryCpu_succeeds : (tryCpu cfg env g c).Succeeds s := by
  unfold tryCpu
  rw [Checked.succeeds_bind_get]
  split
  · exact Checked.succeeds_pure
  · split
    · exact Checked.succeeds_pure
    · split
      · exact committed_succeeds
      · exact Checked.succeeds_pure

theorem searchCpu_succeeds (hp : Placed s ∅) (hi : Intact s) :
    (searchCpu cfg env g c).Succeeds s := by
  unfold searchCpu
  refine (tryHome_succeeds hp hi).bind fun home s₁ _ => ?_
  cases home with
  | true =>
      rw [if_pos rfl, Checked.succeeds_bind_get]
      exact Checked.succeeds_pure
  | false =>
      exact Checked.Succeeds.bind tryCpu_succeeds
        fun _ _ _ => Checked.succeeds_pure

theorem findTarget_succeeds {cs : List CpuId} (hp : Placed s ∅)
    (hi : Intact s) : (findTarget cfg env g cs).Succeeds s := by
  induction cs with
  | nil => exact Checked.succeeds_pure
  | cons c cs ih =>
      unfold findTarget
      refine (searchCpu_succeeds hp hi).bind fun target s₁ hsearch => ?_
      cases target with
      | some target => exact Checked.succeeds_pure
      | none =>
          cases searchCpu_cases hsearch
          exact ih

theorem settleTarget_succeeds {st : TxnState} (hp : Placed s ∅)
    (hi : Intact s) (hreq : s.req c = .committed st) :
    (settleTarget env c).Succeeds s := by
  have hcom : committed c (env.answer c) s = .ok (true, s) := by
    unfold committed
    rw [hreq]
  unfold settleTarget
  rw [Checked.succeeds_bind hcom, succeeds_bind_check rfl,
    Checked.succeeds_bind_get]
  split
  · exact (syncCpuState_succeeds_of hp hi hcom).bind
      fun _ _ _ => Checked.succeeds_pure
  · exact Checked.succeeds_pure

theorem vacateTarget_succeeds (hp : Placed s ∅) (hi : Intact s)
    (hcommit : env.commit = .complete) :
    (vacateTarget env c (s.cpuStates c).current).Succeeds s := by
  cases hcur : (s.cpuStates c).current with
  | none => exact Checked.succeeds_pure
  | some p =>
      obtain ⟨k, hk⟩ := hi.current hcur
      obtain ⟨-, hon, hcpu⟩ := hp.at_current hk hcur
      exact ⟨((), _), (vacateTarget_ok hk hon hcpu).mpr ⟨hcommit, rfl⟩⟩

theorem migrateTo_succeeds {st : TxnState} (hp : Placed s ∅) (hi : Intact s)
    (hreq : s.req c = .committed st) (hcommit : env.commit = .complete) :
    (migrateTo env c).Succeeds s := by
  unfold migrateTo
  refine (settleTarget_succeeds hp hi hreq).bind fun _ s₁ hset => ?_
  have hm := (settleTarget_settled hset).moves hp
  rw [Checked.succeeds_bind_get]
  exact (vacateTarget_succeeds (hp.moves hm) (hi.moves hm) hcommit).bind
    fun _ _ _ => Checked.succeeds_modify

theorem pickNextGlobalCpu_succeeds (hp : Placed s ∅) (hi : Intact s)
    (hcommit : env.commit = .complete) :
    (pickNextGlobalCpu cfg env).Succeeds s := by
  unfold pickNextGlobalCpu
  rw [Checked.succeeds_bind_get]
  refine (findTarget_succeeds hp hi).bind fun target s₁ hfind => ?_
  rcases findTarget_cases hfind with ⟨rfl, -⟩ | ⟨c, rfl, _, -, hturn⟩
  · exact Checked.succeeds_pure
  · obtain ⟨st, hst⟩ := hturn.committed
    rcases hturn.settled with hset | hpoll
    · have hm := hset.moves hp
      exact migrateTo_succeeds (hp.moves hm) (hi.moves hm) hst hcommit
    · exact migrateTo_succeeds (hpoll.placed hp) (hpoll.intact hi) hst hcommit

end Migration

/-- In every run whose tasks depart while blocked, no assertion of a round or
of a migration fails, whatever the transactions' outcomes, the availability
of the CPUs and the status words, as long as no runtime goes backwards and
the unschedule commit succeeds. -/
theorem scheduler_never_aborts {cfg : Config} {s : NetScheduler}
    (h : CleanReachable cfg s) :
    (∀ env : RoundEnv, RuntimeLe env s →
      ∃ s', globalSchedule cfg env s = .ok ((), s')) ∧
    ∀ env : MigrateEnv, env.commit = .complete →
      ∃ s', pickNextGlobalCpu cfg env s = .ok ((), s') := by
  have hp := (sound_of_reachable h.reachable).placed
  have hi := intact_of_cleanReachable h
  constructor
  · intro env hr
    have hsucc : (globalSchedule cfg env).Succeeds s :=
      globalSchedule_succeeds hp hi hr
    obtain ⟨⟨u, s'⟩, hok⟩ := hsucc
    exact ⟨s', hok⟩
  · intro env hcommit
    have hsucc : (pickNextGlobalCpu cfg env).Succeeds s :=
      pickNextGlobalCpu_succeeds hp hi hcommit
    obtain ⟨⟨u, s'⟩, hok⟩ := hsucc
    exact ⟨s', hok⟩

/-- A migration that finds every CPU available and every commit successful. -/
def calmMigration : MigrateEnv where
  homeAvailable := fun _ => true
  homeAnswer := fun _ => some .complete
  available := fun _ => true
  answer := fun _ => some .complete
  commit := .complete

/-- A run with a task waiting for its transaction and one still queued: the
next round evicts the first for the second, and a migration would unschedule
it. -/
theorem scheduler_never_aborts_two :
    ∃ s s₁ s₂, CleanReachable twoCpus s ∧ (s.cpuStates 1).next = some 0 ∧
      RuntimeLe calmRound s ∧
      globalSchedule twoCpus calmRound s = .ok ((), s₁) ∧
      calmMigration.commit = .complete ∧
      pickNextGlobalCpu twoCpus calmMigration s = .ok ((), s₂) := by
  have hrun : ∃ s, performAll twoCpus
      [newTask 0 false true "app", .globalSchedule calmRound,
        newTask 1 true true "EngineThread/0"] twoCpusStart = .ok ((), s) ∧
      (s.cpuStates 1).next = some 0 ∧
      (∃ k, s.task 0 = .live k ∧ k.runtime = 0) ∧
      (∃ k, s.task 1 = .live k ∧ k.runtime = 0) ∧
      ∀ n, s.task (n + 2) = .unborn :=
    ⟨_, rfl, rfl, ⟨_, rfl, rfl⟩, ⟨_, rfl, rfl⟩, fun _ => rfl⟩
  obtain ⟨s, hrun, hnext, ⟨k₀, hk₀, hr₀⟩, ⟨k₁, hk₁, hr₁⟩, hrest⟩ := hrun
  have hreach : CleanReachable twoCpus s :=
    reach_performAll (.init twoCpusStart_init)
      (by simp [newTask, departsBlocked]) hrun
  have hle : RuntimeLe calmRound s := by
    intro t k hk
    rcases t with _ | _ | n
    · cases hk₀.symm.trans hk
      exact Nat.le_of_eq hr₀
    · cases hk₁.symm.trans hk
      exact Nat.le_of_eq hr₁
    · rw [hrest n] at hk
      cases hk
  obtain ⟨hround, hmigrate⟩ := scheduler_never_aborts hreach
  obtain ⟨s₁, hs₁⟩ := hround calmRound hle
  obtain ⟨s₂, hs₂⟩ := hmigrate calmMigration rfl
  exact ⟨s, s₁, s₂, hreach, hnext, hle, hs₁, rfl, hs₂⟩

end GhostDataplane.Agent
