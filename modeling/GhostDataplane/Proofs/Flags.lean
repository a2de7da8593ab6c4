import GhostDataplane.Proofs.Replies
import GhostDataplane.Proofs.Turns

/-!
# `prio_boost` and `preempted` are never both set

A task that was preempted is off its CPU until the agent places it again, so
the kernel has nothing to say about it in the meantime. Of that the callbacks
rely on one thing: those that clear `prio_boost` and leave `preempted` alone
never see a task with `preempted` set. `Tracked` adds to the scheduler which
tasks the kernel owes its silence, and a run is one in which it keeps it.

The invariant is that a task with `preempted` set is queued, has no
`prio_boost`, and is one of those. Everything that takes a task out of a
queue for good clears `preempted` on the way: the batched transaction folds
it into `prio_boost`, the replacement clears both. So the pending tasks, the
running ones and the blocked ones do not have it, and setting `prio_boost`
for them is safe. Inside a round a task that could not be placed yields with
its flags, and is queued again at the end.
-/

namespace GhostDataplane.Agent

open GhostDataplane.Lib

/-! ## The silence of the kernel -/

/-- The event places the task: it opens a batched transaction for it, or a
synchronous one that commits. -/
def places (env : RoundEnv) (t : TaskId) : Event → Bool
  | .opened x => decide (x.target = t) &&
      (x.batched || decide (env.commit x.cpu = .complete))
  | _ => false

/-- The scheduler, and the tasks that were preempted and not placed since. -/
structure Tracked where
  sched : NetScheduler
  owed : TaskId → Bool

/-- The tasks that the kernel owes its silence after an operation that led
from `s` to `s'`. -/
def owedAfter (owed : TaskId → Bool) (s s' : NetScheduler) : Op → TaskId → Bool
  | .taskPreempted t _ => Function.update owed t true
  | .globalSchedule env => fun t =>
      owed t && !(s'.log.drop s.log.length).any (places env t)
  | _ => owed

/-- The kernel is silent about the tasks it owes that. -/
def silent (w : Tracked) : Op → Bool
  | .taskBlocked t _ | .taskYield t _ | .taskSwitchto t _
  | .taskPreempted t _ => !w.owed t
  | _ => true

/-- The scheduler as a machine that keeps track. -/
def tracked (cfg : Config) : Machine Tracked Op where
  init w := (netScheduler cfg).init w.sched ∧ w.owed = fun _ => false
  step w op w' := perform cfg op w.sched = .ok ((), w'.sched) ∧
    w'.owed = owedAfter w.owed w.sched w'.sched op

/-- The states of the runs in which the kernel is silent when it should. -/
def SilentReachable (cfg : Config) : Tracked → Prop :=
  (tracked cfg).Reach fun w op => silent w op = true

theorem SilentReachable.reachable {cfg : Config} {w : Tracked}
    (h : SilentReachable cfg w) : Reachable cfg w.sched := by
  induction h with
  | init hw => exact .init hw.1
  | step _ _ hs ih => exact .step ih trivial hs.1

/-! ## Inside a round -/

/-- The flags exclude each other, and a task that has `preempted` waits. -/
def FlagsApart (s : NetScheduler) : Prop :=
  ∀ t k, s.task t = .live k → k.preempted = true →
    k.prioBoost = false ∧ (k.runState = .queued ∨ k.runState = .yielding)

/-- The same in a round that began in `s₀`, where the tasks that have
`preempted` are owed silence and the round has not placed them. -/
structure Waiting (env : RoundEnv) (owed : TaskId → Bool) (s₀ : NetScheduler)
    (evs : List Event) (s : NetScheduler) : Prop where
  log : s.log = s₀.log ++ evs
  apart : FlagsApart s
  owed : ∀ t k, s.task t = .live k → k.preempted = true →
    owed t = true ∧ ∀ e ∈ evs, places env t e = false

section Round

variable {cfg : Config} {env : RoundEnv} {owed : TaskId → Bool}
  {s₀ s s' : NetScheduler} {evs : List Event}

/-- A turn whose tasks with `preempted` had it before, waited before and were
not placed by it. -/
theorem Waiting.extend (h : Waiting env owed s₀ evs s) (new : List Event)
    (hlog : s'.log = s.log ++ new)
    (htask : ∀ t k', s'.task t = .live k' → k'.preempted = true →
      ∃ k, s.task t = .live k ∧ k.preempted = true ∧
        k'.prioBoost = k.prioBoost ∧
        (k'.runState = k.runState ∨ k'.runState = .queued ∨
          k'.runState = .yielding) ∧ ∀ e ∈ new, places env t e = false) :
    Waiting env owed s₀ (evs ++ new) s' := by
  refine ⟨by rw [hlog, h.log, List.append_assoc], ?_, ?_⟩
  · intro t k' hk' hpre'
    obtain ⟨k, hk, hpre, hboost, hst, -⟩ := htask t k' hk' hpre'
    obtain ⟨hb, hwait⟩ := h.apart t k hk hpre
    refine ⟨hboost.trans hb, ?_⟩
    rcases hst with hsame | hwait'
    · rw [hsame]
      exact hwait
    · exact hwait'
  · intro t k' hk' hpre'
    obtain ⟨k, hk, hpre, -, -, hnew⟩ := htask t k' hk' hpre'
    obtain ⟨howed, hold⟩ := h.owed t k hk hpre
    refine ⟨howed, fun e he => ?_⟩
    rcases List.mem_append.mp he with he | he
    · exact hold e he
    · exact hnew e he

/-- A turn that leaves the tasks alone. -/
theorem Waiting.quiet (h : Waiting env owed s₀ evs s) (new : List Event)
    (hlog : s'.log = s.log ++ new) (htask : s'.task = s.task)
    (hnew : ∀ t, ∀ e ∈ new, places env t e = false) :
    Waiting env owed s₀ (evs ++ new) s' :=
  h.extend new hlog fun t k' hk' hpre =>
    ⟨k', htask ▸ hk', hpre, rfl, Or.inl rfl, hnew t⟩

/-- A turn that writes the record of `t` only. Either the record has no
`preempted`, or its flags are as they were and the task waits. -/
theorem Waiting.write {t : TaskId} {k k' : NetTask}
    (h : Waiting env owed s₀ evs s) (new : List Event)
    (hlog : s'.log = s.log ++ new)
    (htask : s'.task = Function.update s.task t (.live k'))
    (hk : s.task t = .live k)
    (hwrite : k'.preempted = true → k.preempted = true ∧
      k'.prioBoost = k.prioBoost ∧
      (k'.runState = .queued ∨ k'.runState = .yielding) ∧
      ∀ e ∈ new, places env t e = false)
    (hnew : ∀ u, u ≠ t → ∀ e ∈ new, places env u e = false) :
    Waiting env owed s₀ (evs ++ new) s' := by
  refine h.extend new hlog fun u l hl hpre => ?_
  rw [htask] at hl
  by_cases hut : u = t
  · subst hut
    rw [Function.update_self] at hl
    cases hl
    obtain ⟨hkpre, hboost, hst, hev⟩ := hwrite hpre
    exact ⟨k, hk, hkpre, hboost, Or.inr hst, hev⟩
  · rw [Function.update_of_ne hut] at hl
    exact ⟨l, hl, hpre, rfl, Or.inl rfl, hnew u hut⟩

/-- A task that does not wait has no `preempted`. -/
theorem FlagsApart.not_preempted (h : FlagsApart s) {t : TaskId} {k : NetTask}
    (hk : s.task t = .live k) (hq : k.runState ≠ .queued)
    (hy : k.runState ≠ .yielding) : k.preempted = false := by
  by_contra hpre
  exact (h t k hk (by simpa using hpre)).2.elim hq hy

theorem Waiting.settled {c : CpuId} (h : Waiting env owed s₀ evs s)
    (hp : Placed s ∅) (hset : Settled c s s') :
    ∃ evs', Waiting env owed s₀ evs' s' := by
  rcases hset with ⟨-, hpoll, -⟩ | ⟨b, t, k, st, hn, hk, -, hcase⟩
  · refine ⟨_, h.quiet [] ?_ ?_ (by simp)⟩
    · rw [hpoll.eq, List.append_nil]
    · rw [hpoll.eq]
  · have hpend := (hp.at_next hk hn).2.1
    have hnot : k.preempted = false :=
      h.apart.not_preempted hk (by rw [hpend]; simp) (by rw [hpend]; simp)
    have hev : ∀ u, ∀ e ∈ [Event.reaped c t st], places env u e = false := by
      simp [places]
    rcases hcase with ⟨rfl, -, rfl⟩ | ⟨-, -, rfl⟩
    · exact ⟨_, h.write _ rfl rfl hk (fun hpre => by cases hnot.symm.trans hpre)
        fun u _ => hev u⟩
    · exact ⟨_, h.write _ rfl rfl hk (fun hpre => by cases hnot.symm.trans hpre)
        fun u _ => hev u⟩

/-- `places` asks for the target of a transaction. -/
theorem places_opened_ne {x : Txn} {u : TaskId} (hu : u ≠ x.target) :
    places env u (.opened x) = false := by
  simp [places, Ne.symm hu]

theorem Taken.waiting {n : TaskId} {k : NetTask} {s₁ : NetScheduler}
    (ht : Taken s n k s₁) (h : Waiting env owed s₀ evs s) :
    Waiting env owed s₀ (evs ++ [.dequeued n]) s₁ := by
  refine h.quiet _ ?_ ht.task (by simp [places])
  rcases dequeue_some ht.dequeued with ⟨rest, -, rfl⟩ | ⟨-, rest, -, rfl⟩
  · rfl
  · rfl

/-- The evicted task has no `preempted`. -/
theorem Replaced.evicted_not_preempted {c : CpuId} {p n : TaskId}
    {k kn l : NetTask} {st : TxnState} {swRuntime : TaskId → Nat} {now : Int}
    (h : Replaced s c n kn st swRuntime now p k s') (hpn : p ≠ n)
    (hl : s'.task p = .live l) : l.preempted = false := by
  rcases h.result with ⟨-, rfl⟩ | ⟨-, rfl⟩
  · cases hl.symm.trans
      ((setTask_task_ne hpn).trans (setTask_task_self _ p _))
    rfl
  · cases hl.symm.trans
      ((setTask_task_ne hpn).trans (setTask_task_self _ p _))
    rfl

/-- The new task has no `preempted` either if it was placed, and otherwise it
yields with the flags it had. -/
theorem Replaced.target_flags {c : CpuId} {p n : TaskId} {k kn l : NetTask}
    {st : TxnState} {swRuntime : TaskId → Nat} {now : Int}
    (h : Replaced s c n kn st swRuntime now p k s')
    (hl : s'.task n = .live l) (hpre : l.preempted = true) :
    st ≠ .complete ∧ kn.preempted = true ∧ l.prioBoost = kn.prioBoost ∧
      l.runState = .yielding := by
  rcases h.result with ⟨-, rfl⟩ | ⟨hst, rfl⟩
  · cases hl.symm.trans (setTask_task_self _ n _)
    cases hpre
  · cases hl.symm.trans (setTask_task_self _ n _)
    exact ⟨hst, hpre, rfl, rfl⟩

theorem Waiting.replaced {c : CpuId} {p n : TaskId} {k kn : NetTask} {now : Int}
    (h : Waiting env owed s₀ evs s) (hp : Placed s {n})
    (hn : s.task n = .live kn)
    (hrep : Replaced s c n kn (env.commit c) env.swRuntime now p k s') :
    ∃ evs', Waiting env owed s₀ evs' s' := by
  have hpn : p ≠ n := by
    intro hpn
    have hhand := (hp.hand n rfl).1
    rw [← hpn] at hhand
    exact Place.noConfusion ((hhand.current c).mp hrep.current)
  refine ⟨_, h.extend _ hrep.log fun u l hl hpre => ?_⟩
  simp only [List.mem_singleton, forall_eq]
  by_cases hun : u = n
  · subst hun
    obtain ⟨hst, hkn, hboost, hyield⟩ := hrep.target_flags hl hpre
    exact ⟨kn, hn, hkn, hboost, Or.inr (Or.inr hyield), by simp [places, hst]⟩
  · have hup : u ≠ p := by
      intro hup
      subst hup
      cases hpre.symm.trans (hrep.evicted_not_preempted hpn hl)
    rw [hrep.task_other hun hup] at hl
    exact ⟨l, hl, hpre, rfl, Or.inl rfl, places_opened_ne hun⟩

theorem Waiting.turn (h : Waiting env owed s₀ evs s) (hp : Placed s ∅)
    (hturn : RoundTurn cfg env s s') : ∃ evs', Waiting env owed s₀ evs' s' := by
  cases hturn with
  | settled hset => exact h.settled hp hset
  | @assigned n k _ _ s₁ _ ht has _ _ =>
      have h₁ := ht.waiting h
      have hp₁ : Placed s₁ {n} := by
        rw [← LawfulSingleton.insert_empty_eq]
        exact ht.placed
      cases has with
      | stale | unplaced =>
          refine ⟨_,
            h₁.write [] (List.append_nil _).symm rfl ht.live ?_ (by simp)⟩
          exact fun hpre => ⟨hpre, rfl, Or.inr rfl, by simp⟩
      | batched =>
          refine ⟨_, h₁.write _ rfl rfl ht.live (fun hpre => by cases hpre) ?_⟩
          intro u hu
          simp only [List.mem_singleton, forall_eq]
          exact places_opened_ne hu
      | replaced _ _ _ hrep => exact h₁.replaced hp₁ ht.live hrep
  | submitted => exact ⟨_, h.quiet _ rfl rfl (by simp [places])⟩
  | requeued hk hy =>
      refine ⟨_, h.write [] (List.append_nil _).symm rfl hk ?_ (by simp)⟩
      exact fun hpre => ⟨hpre, rfl, Or.inl rfl, by simp⟩
  | bumped => exact ⟨_, h.quiet [] (List.append_nil _).symm rfl (by simp)⟩

theorem Waiting.turns (h : Waiting env owed s₀ evs s) (hp : Placed s ∅)
    (hturns : Relation.ReflTransGen (RoundTurn cfg env) s s') :
    Placed s' ∅ ∧ ∃ evs', Waiting env owed s₀ evs' s' := by
  induction hturns with
  | refl => exact ⟨hp, evs, h⟩
  | tail _ hturn ih =>
      obtain ⟨hp₁, evs₁, h₁⟩ := ih
      exact ⟨hturn.placed hp₁, h₁.turn hp₁ hturn⟩

end Round

/-! ## Between operations -/

/-- A task that has `preempted` has no `prio_boost`, is queued, and is owed
silence. -/
def Waits (s : NetScheduler) (owed : TaskId → Bool) : Prop :=
  ∀ t k, s.task t = .live k → k.preempted = true →
    k.prioBoost = false ∧ k.runState = .queued ∧ owed t = true

section Steps

variable {cfg : Config} {owed : TaskId → Bool} {s s' : NetScheduler}

theorem Waits.waiting (h : Waits s owed) (env : RoundEnv) :
    Waiting env owed s [] s := by
  refine ⟨(List.append_nil _).symm, fun t k hk hpre => ?_,
    fun t k hk hpre => ?_⟩
  · obtain ⟨hboost, hq, -⟩ := h t k hk hpre
    exact ⟨hboost, Or.inl hq⟩
  · exact ⟨(h t k hk hpre).2.2, by simp⟩

theorem Waits.not_preempted (h : Waits s owed) {t : TaskId} {k : NetTask}
    (hk : s.task t = .live k) (hq : k.runState ≠ .queued) :
    k.preempted = false := by
  by_contra hpre
  exact hq (h t k hk (by simpa using hpre)).2.1

/-- The record of `t` was written, and the silence owed to others is the
same. -/
theorem Waits.write {owed' : TaskId → Bool} {t : TaskId} {k' : NetTask}
    (h : Waits s owed) (htask : s'.task = Function.update s.task t (.live k'))
    (hk' : k'.preempted = true →
      k'.prioBoost = false ∧ k'.runState = .queued ∧ owed' t = true)
    (howed : ∀ u, u ≠ t → owed' u = owed u) : Waits s' owed' := by
  intro u l hl hpre
  rw [htask] at hl
  by_cases hut : u = t
  · subst hut
    rw [Function.update_self] at hl
    cases hl
    exact hk' hpre
  · rw [Function.update_of_ne hut] at hl
    rw [howed u hut]
    exact h u l hl hpre

/-- The record of `t` was written, without `preempted`. -/
theorem Waits.clear {t : TaskId} {k' : NetTask} (h : Waits s owed)
    (htask : s'.task = Function.update s.task t (.live k'))
    (hk' : k'.preempted = false) : Waits s' owed :=
  h.write htask (fun hpre => by cases hk'.symm.trans hpre) fun _ _ => rfl

theorem Waits.congr (h : Waits s owed) (htask : s'.task = s.task) :
    Waits s' owed := by
  intro t k hk
  rw [htask] at hk
  exact h t k hk

theorem Waits.free {t : TaskId} (h : Waits s owed) : Waits (s.free t) owed := by
  intro u k hk
  by_cases hut : u = t
  · subst hut
    simp [NetScheduler.free] at hk
  · simp only [NetScheduler.free, Function.update_of_ne hut] at hk
    exact h u k hk

/-- After a round nobody is left yielding. -/
theorem Round.yieldingTasks {env : RoundEnv} {scan : Scan} {a : Assign}
    {s₁ s₂ s₃ s₄ : NetScheduler} (h : Round cfg env s scan s₁ a s₂ s₃ s₄ s') :
    s'.yieldingTasks = [] := by
  rw [h.finished]
  rfl

theorem Waits.globalSchedule {env : RoundEnv} (h : Waits s owed)
    (hp : Placed s ∅) (hperf : Agent.globalSchedule cfg env s = .ok ((), s')) :
    Waits s' (owedAfter owed s s' (.globalSchedule env)) := by
  obtain ⟨hp', evs, hwait⟩ :=
    (h.waiting env).turns hp (globalSchedule_turns hp hperf)
  obtain ⟨scan, s₁, a, s₂, s₃, s₄, hround⟩ := globalSchedule_round hperf
  intro t k hk hpre
  obtain ⟨hboost, hst⟩ := hwait.apart t k hk hpre
  obtain ⟨howed, hplaces⟩ := hwait.owed t k hk hpre
  refine ⟨hboost, hst.resolve_right fun hy => ?_, ?_⟩
  · obtain ⟨p, hpl, hat⟩ := hp'.live t k hk (Set.notMem_empty t)
    rw [NetTask.place, hy] at hpl
    cases hpl
    have hcount := hat.yielding
    rw [hround.yieldingTasks] at hcount
    cases hcount
  · have hdrop : s'.log.drop s.log.length = evs := by
      rw [hwait.log, List.drop_left]
    have hany : evs.any (places env t) = false := by
      rw [List.any_eq_false]
      intro e he
      rw [hplaces e he]
      simp
    simp only [owedAfter, hdrop, howed, hany]
    rfl

theorem Waits.settled {c : CpuId} (h : Waits s owed) (hp : Placed s ∅)
    (hset : Settled c s s') : Waits s' owed := by
  rcases hset with ⟨-, hpoll, -⟩ | ⟨b, t, k, st, hn, hk, -, hcase⟩
  · rw [hpoll.eq]
    exact h.congr rfl
  · have hnot : k.preempted = false :=
      h.not_preempted hk (by rw [(hp.at_next hk hn).2.1]; simp)
    rcases hcase with ⟨-, -, rfl⟩ | ⟨-, -, rfl⟩
    · exact h.clear rfl hnot
    · exact h.clear rfl hnot

theorem Waits.migrated {env : MigrateEnv} {c : CpuId} {s₁ s₂ : NetScheduler}
    (h : Waits s owed) (hp : Placed s ∅)
    (hm : Migrated cfg env s c s₁ s₂ s') : Waits s' owed := by
  have h₁ := h.settled hp hm.settled
  rw [hm.handOver]
  cases hm.vacated with
  | idle _ => exact h₁.congr rfl
  | evicted _ hk hon _ =>
      have hnot := h₁.not_preempted hk (by rw [hon]; simp)
      refine Waits.congr (s := s₁.unscheduled c _ _) (h₁.clear rfl ?_) rfl
      exact hnot

theorem Waits.step {op : Op} (h : Waits s owed) (hsound : Sound s)
    (hsilent : silent ⟨s, owed⟩ op = true)
    (hperf : perform cfg op s = .ok ((), s')) :
    Waits s' (owedAfter owed s s' op) := by
  have hp := hsound.placed
  -- A task that no silence is owed to has no `preempted`.
  have hnot : ∀ t k, s.task t = .live k → (!owed t) = true →
      k.preempted = false := by
    intro t k hk hout
    by_contra hpre
    rw [(h t k hk (by simpa using hpre)).2.2] at hout
    cases hout
  cases op with
  | taskNew t p msg =>
      cases taskNew_step hperf with
      | moves hop _ => exact absurd rfl (hop t p msg)
      | new _ _ => exact h.clear rfl rfl
      | newRunnable _ _ => exact h.clear rfl rfl
  | taskDead t n =>
      obtain ⟨k, -, -, rfl⟩ := taskDead_ok hperf
      exact h.free
  | taskDeparted t msg =>
      obtain ⟨k, -, hd⟩ := taskDeparted_ok hperf
      rcases hd with rfl | ⟨c, rfl⟩
      · exact h.free
      · have hsw : Waits (s.setInSwitchto c false) owed := h.congr rfl
        exact hsw.free
  | taskRunnable t msg =>
      obtain ⟨k, k', hr, hb, hpre⟩ := taskRunnable_reply hperf
      exact h.clear hr.task
        (hpre.trans (h.not_preempted hr.live (by simp [hb])))
  | taskBlocked t msg =>
      obtain ⟨k, k', hr, -, -, hpre⟩ := taskBlocked_reply hperf
      exact h.clear hr.task (hpre.trans (hnot t k hr.live hsilent))
  | taskYield t msg =>
      obtain ⟨k, k', hr, -, -, hpre⟩ := taskYield_reply hperf
      exact h.clear hr.task (hpre.trans (hnot t k hr.live hsilent))
  | taskSwitchto t msg =>
      obtain ⟨k, k', hr, -, -, hpre⟩ := taskSwitchto_reply hperf
      exact h.clear hr.task (hpre.trans (hnot t k hr.live hsilent))
  | taskPreempted t msg =>
      obtain ⟨k, k', hr, hq, hboost, -⟩ := taskPreempted_reply hperf
      refine h.write hr.task (fun _ => ⟨hboost, hq, ?_⟩) fun u hu => ?_
      · exact Function.update_self t true owed
      · exact Function.update_of_ne hu true owed
  | globalSchedule env => exact h.globalSchedule hp hperf
  | pickNextGlobalCpu env =>
      rcases pickNextGlobalCpu_cases hp hperf with rfl | ⟨c, s₁, s₂, hm⟩
      · exact h
      · exact h.migrated hp hm

end Steps

theorem waits_of_silent {cfg : Config} {w : Tracked}
    (h : SilentReachable cfg w) : Waits w.sched w.owed := by
  refine Machine.Reach.invariant (I := fun w => Waits w.sched w.owed) ?_ ?_ h
  · rintro w ⟨⟨globalCpu, cpuhist, st, hcon⟩, -⟩ t k hk
    obtain ⟨c, -, hs⟩ := construct_ok hcon
    rw [hs] at hk
    cases hk
  · intro w op w' hr hwaits hok hs
    rw [hs.2]
    exact hwaits.step (sound_of_reachable (SilentReachable.reachable hr)) hok
      hs.1

/-- If the kernel says nothing about a preempted task until the agent has
placed it, then no task has both flags, and a task that has `preempted` is
queued, or inside a round may be yielding. -/
theorem boost_preempted_exclusive {cfg : Config} {w : Tracked}
    (h : SilentReachable cfg w) :
    (∀ t k, w.sched.task t = .live k →
      ¬(k.prioBoost = true ∧ k.preempted = true) ∧
      (k.preempted = true → k.runState = .queued)) ∧
    ∀ env s, Relation.ReflTransGen (RoundTurn cfg env) w.sched s →
      ∀ t k, s.task t = .live k →
        ¬(k.prioBoost = true ∧ k.preempted = true) ∧
        (k.preempted = true → k.runState = .queued ∨
          k.runState = .yielding) := by
  have hwaits := waits_of_silent h
  have hp := (sound_of_reachable h.reachable).placed
  refine ⟨fun t k hk => ⟨?_, ?_⟩, fun env s hturns t k hk => ?_⟩
  · rintro ⟨hboost, hpre⟩
    cases hboost.symm.trans (hwaits t k hk hpre).1
  · exact fun hpre => (hwaits t k hk hpre).2.1
  · obtain ⟨-, evs, hwait⟩ := (hwaits.waiting env).turns hp hturns
    refine ⟨?_, fun hpre => (hwait.apart t k hk hpre).2⟩
    rintro ⟨hboost, hpre⟩
    cases hboost.symm.trans (hwait.apart t k hk hpre).1

/-- A task that is preempted on its CPU is queued with `preempted`. -/
theorem boost_preempted_exclusive_preempted :
    ∃ w k, SilentReachable twoCpus w ∧ w.sched.task 0 = .live k ∧
      k.preempted = true ∧ k.runState = .queued := by
  have hrun : ∃ s₁ s₂ s₃ s₄ k,
      perform twoCpus (newTask 0 true true "EngineThread/0") twoCpusStart =
        .ok ((), s₁) ∧
      perform twoCpus (.globalSchedule calmRound) s₁ = .ok ((), s₂) ∧
      perform twoCpus (.globalSchedule calmRound) s₂ = .ok ((), s₃) ∧
      perform twoCpus (.taskPreempted 0 offCpuMsg) s₃ = .ok ((), s₄) ∧
      s₄.task 0 = .live k ∧ k.preempted = true :=
    ⟨_, _, _, _, _, rfl, rfl, rfl, rfl, rfl, rfl⟩
  obtain ⟨s₁, s₂, s₃, s₄, k, hnew, hround₁, hround₂, hmsg, hk, hpre⟩ := hrun
  have h₀ : SilentReachable twoCpus ⟨twoCpusStart, fun _ => false⟩ :=
    .init ⟨twoCpusStart_init, rfl⟩
  have h₁ : SilentReachable twoCpus ⟨s₁, fun _ => false⟩ :=
    .step h₀ rfl ⟨hnew, rfl⟩
  have h₂ : SilentReachable twoCpus ⟨s₂, fun _ => false⟩ :=
    .step h₁ rfl ⟨hround₁, rfl⟩
  have h₃ : SilentReachable twoCpus ⟨s₃, fun _ => false⟩ :=
    .step h₂ rfl ⟨hround₂, rfl⟩
  have h₄ :
      SilentReachable twoCpus ⟨s₄, Function.update (fun _ => false) 0 true⟩ :=
    .step h₃ rfl ⟨hmsg, rfl⟩
  exact ⟨_, k, h₄, hk, hpre, ((boost_preempted_exclusive h₄).1 0 k hk).2 hpre⟩

end GhostDataplane.Agent
