import GhostDataplane.Proofs.NoAbort
import GhostDataplane.Proofs.Replies
import GhostDataplane.Proofs.Turns

/-!
# The CPU of the global agent

The global agent spins on its CPU, so no task may be placed there. Three
places see to that: the scan skips the CPU, the migration vacates its target
before it moves, and the messages only ever take tasks off a CPU. What the
migration takes off its target goes back into a run queue, whichever of the
states the target was in: idle, running a task, or with a transaction that
succeeded or failed and was not reaped yet.

The search has two branches with different guards. The one for the home CPU
does not look at `in_switchto`, so a switchto chain keeps the global agent
away from every CPU but its own home.
-/

namespace GhostDataplane.Agent

open GhostDataplane.Lib

/-- The global agent's CPU is empty, and its home is in the enclave. -/
structure GlobalFree (cfg : Config) (s : NetScheduler) : Prop where
  current : (s.cpuStates s.globalCpuid).current = none
  next : (s.cpuStates s.globalCpuid).next = none
  home : s.globalHomeCpu ∈ cfg.cpus

section Steps

variable {cfg : Config} {s s' : NetScheduler}

theorem GlobalFree.cleared (h : GlobalFree cfg s) (hc : Cleared s s') :
    GlobalFree cfg s' := by
  refine ⟨?_, ?_, hc.globalHomeCpu ▸ h.home⟩
  · rw [hc.globalCpuid]
    exact (hc.current _).elim (fun hsame => hsame.trans h.current) id
  · rw [hc.globalCpuid]
    exact (hc.next _).elim (fun hsame => hsame.trans h.next) id

/-- The CPUs are as they were, and so is the global agent. -/
theorem GlobalFree.congr (h : GlobalFree cfg s)
    (hcpu : s'.cpuStates = s.cpuStates)
    (hglobal : s'.globalCpuid = s.globalCpuid)
    (hhome : s'.globalHomeCpu = s.globalHomeCpu) : GlobalFree cfg s' :=
  h.cleared (.of_cpus hcpu hglobal hhome)

/-- A change to another CPU. -/
theorem GlobalFree.confined {c : CpuId} (h : GlobalFree cfg s)
    (hf : Confined c s s') (hc : c ≠ s.globalCpuid) : GlobalFree cfg s' := by
  have hsame := hf.cpuStates s.globalCpuid (Ne.symm hc)
  refine ⟨?_, ?_, hf.globalHomeCpu ▸ h.home⟩
  · rw [hf.globalCpuid, hsame]
    exact h.current
  · rw [hf.globalCpuid, hsame]
    exact h.next

/-- There is nothing to reap on the global agent's CPU. -/
theorem GlobalFree.settled {c : CpuId} (h : GlobalFree cfg s)
    (hset : Settled c s s') : GlobalFree cfg s' := by
  by_cases hc : c = s.globalCpuid
  · rcases hset with ⟨-, hpoll, -⟩ | ⟨b, t, k, st, hn, -⟩
    · rw [hpoll.eq]
      exact h.congr rfl rfl rfl
    · rw [hc, h.next] at hn
      cases hn
  · exact h.confined hset.confined hc

theorem Taken.congr_global {n : TaskId} {k : NetTask} {s₁ : NetScheduler}
    (ht : Taken s n k s₁) (h : GlobalFree cfg s) : GlobalFree cfg s₁ ∧
      s₁.globalCpuid = s.globalCpuid := by
  rcases dequeue_some ht.dequeued with ⟨rest, -, rfl⟩ | ⟨-, rest, -, rfl⟩
  · exact ⟨h.congr rfl rfl rfl, rfl⟩
  · exact ⟨h.congr rfl rfl rfl, rfl⟩

theorem GlobalFree.turn {env : RoundEnv} (h : GlobalFree cfg s)
    (hturn : RoundTurn cfg env s s') : GlobalFree cfg s' := by
  cases hturn with
  | settled hset => exact h.settled hset
  | assigned ht has hidle hlow =>
      obtain ⟨h₁, hglobal⟩ := ht.congr_global h
      rw [← hglobal] at hidle hlow
      cases has with
      | stale | unplaced => exact h₁.congr rfl rfl rfl
      | batched _ hpick _ _ =>
          exact h₁.confined openBatched_confined
            (hidle _ (pickNextCpu_mem hpick).1)
      | replaced _ _ hpick hrep =>
          exact h₁.confined hrep.confined (hlow _ (pickNextCpu_mem hpick).1)
  | submitted | requeued _ _ | bumped => exact h.congr rfl rfl rfl

theorem Vacated.cpu {c : CpuId} {s₂ : NetScheduler} (h : Vacated c s s₂)
    (hnext : (s.cpuStates c).next = none) :
    (s₂.cpuStates c).current = none ∧ (s₂.cpuStates c).next = none ∧
      (∀ d, d ≠ c → s₂.cpuStates d = s.cpuStates d) ∧
      s₂.globalHomeCpu = s.globalHomeCpu := by
  cases h with
  | idle hcur => exact ⟨hcur, hnext, fun _ _ => rfl, rfl⟩
  | evicted =>
      refine ⟨congrArg CpuState.current (setCpu_self _ c _),
        (congrArg CpuState.next (setCpu_self _ c _)).trans hnext,
        fun d hd => setCpu_ne hd, rfl⟩

theorem GlobalFree.migrated {env : MigrateEnv} {c : CpuId}
    {s₁ s₂ : NetScheduler} (h : GlobalFree cfg s)
    (hm : Migrated cfg env s c s₁ s₂ s') : GlobalFree cfg s' := by
  obtain ⟨hcur, hnext, -, hhome⟩ := hm.vacated.cpu hm.settled.next
  rw [hm.handOver]
  refine ⟨hcur, hnext, ?_⟩
  show s₂.globalHomeCpu ∈ cfg.cpus
  rw [hhome, hm.settled.confined.globalHomeCpu]
  exact h.home

theorem GlobalFree.step {op : Op} (h : GlobalFree cfg s) (hp : Placed s ∅)
    (hperf : perform cfg op s = .ok ((), s')) : GlobalFree cfg s' := by
  cases op with
  | globalSchedule env =>
      exact globalSchedule_invariant (fun s s' _ h => h.turn) hp h hperf
  | pickNextGlobalCpu env =>
      rcases pickNextGlobalCpu_cases hp hperf with rfl | ⟨c, s₁, s₂, hm⟩
      · exact h
      · exact h.migrated hm
  | _ => exact h.cleared (perform_cleared rfl hperf)

end Steps

theorem globalFree_of_reachable {cfg : Config} {s : NetScheduler}
    (h : Reachable cfg s) : GlobalFree cfg s := by
  refine Machine.Reach.invariant (I := GlobalFree cfg) ?_ ?_ h
  · rintro s ⟨globalCpu, cpuhist, st, hcon⟩
    obtain ⟨c, hc, rfl⟩ := construct_ok hcon
    exact ⟨rfl, rfl, hc⟩
  · intro s op s' hr hfree _ hperf
    exact hfree.step (sound_of_reachable hr).placed hperf

/-! ## What becomes of the target's task -/

/-- The task is queued, and nowhere else. -/
def Requeued (s : NetScheduler) (t : TaskId) (k : NetTask) : Prop :=
  s.task t = .live k ∧ k.runState = .queued ∧ At s t .queue

/-- The global agent has moved to `c`, and nobody was lost on the way. -/
structure MovedTo (cfg : Config) (env : MigrateEnv) (s : NetScheduler)
    (c : CpuId) (s' : NetScheduler) : Prop where
  global : s'.globalCpuid = c
  moved : c ≠ s.globalCpuid
  mem : c ∈ cfg.cpus
  choice : (c = s.globalHomeCpu ∧ ∃ d ∈ cfg.cpus, env.homeAvailable d = true) ∨
    (env.available c = true ∧
      cfg.topology.numaNode c = cfg.topology.numaNode s.globalHomeCpu)
  free : (s'.cpuStates c).current = none ∧ (s'.cpuStates c).next = none
  otherCpus : ∀ d, d ≠ c → s'.cpuStates d = s.cpuStates d
  /-- A task that ran on the CPU is queued with a boost. -/
  evicted : ∀ p, (s.cpuStates c).current = some p →
    ∃ k', Requeued s' p k' ∧ k'.prioBoost = true
  /-- A task that was pending is queued: with a boost if its transaction was
  found to have succeeded, and with the flags it had otherwise. -/
  pending : ∀ t, (s.cpuStates c).next = some t →
    ∃ k k' st evs, s.task t = .live k ∧ Requeued s' t k' ∧
      s'.log = s.log ++ .reaped c t st :: evs ∧
      (st = .complete → k'.prioBoost = true) ∧
      (st ≠ .complete → k' =
        { k with cpu := none, startSubmit := none, runState := .queued })
  otherTasks : ∀ u, (s.cpuStates c).current ≠ some u →
    (s.cpuStates c).next ≠ some u → s'.task u = s.task u

section Target

variable {cfg : Config} {env : MigrateEnv} {s s₁ s₂ s' : NetScheduler}
  {c : CpuId}

theorem unscheduled_task {p : TaskId} {k : NetTask} :
    (s.unscheduled c p k).task = Function.update s.task p
      (.live { k with prioBoost := true, runState := .queued }) := rfl

/-- A target without a transaction. -/
theorem Migrated.of_polled (hm : Migrated cfg env s c s₁ s₂ s')
    (hp' : Placed s' ∅) (hpoll : Polled c s s₁) :
    (∀ p, (s.cpuStates c).current = some p →
      ∃ k', Requeued s' p k' ∧ k'.prioBoost = true) ∧
    ∀ u, (s.cpuStates c).current ≠ some u → s'.task u = s.task u := by
  have hcpu : s₁.cpuStates = s.cpuStates := by rw [hpoll.eq]
  have htask : s₁.task = s.task := by rw [hpoll.eq]
  have hs' : s'.task = s₂.task := by rw [hm.handOver]; rfl
  rw [← hcpu, ← htask]
  cases hm.vacated with
  | idle hcur =>
      refine ⟨fun p hp => ?_, fun u _ => by rw [hs']⟩
      rw [hcur] at hp
      cases hp
  | @evicted p k hcur hk _ _ =>
      have hself : s'.task p =
          .live { k with prioBoost := true, runState := .queued } := by
        rw [hs', unscheduled_task, Function.update_self]
      constructor
      · intro q hq
        cases hcur.symm.trans hq
        exact ⟨_, ⟨hself, rfl, hp'.at_queued hself (Set.notMem_empty p) rfl⟩,
          rfl⟩
      · intro u hu
        have hne : u ≠ p := fun hup => hu (hup ▸ hcur)
        rw [hs', unscheduled_task, Function.update_of_ne hne]

/-- A target whose transaction is reaped on the way. -/
theorem Migrated.of_reaped {b : Bool} (hm : Migrated cfg env s c s₁ s₂ s')
    (hp : Placed s ∅) (hp' : Placed s' ∅) (hreap : Reaped c s s₁ b) :
    ∃ t k k' st evs, (s.cpuStates c).next = some t ∧ s.task t = .live k ∧
      Requeued s' t k' ∧ s'.log = s.log ++ .reaped c t st :: evs ∧
      (st = .complete → k'.prioBoost = true) ∧
      (st ≠ .complete → k' =
        { k with cpu := none, startSubmit := none, runState := .queued }) ∧
      ∀ u, u ≠ t → s'.task u = s.task u := by
  obtain ⟨t, k, st, hn, hk, -, hcase⟩ := hreap
  have hnone : (s.cpuStates c).current = none :=
    (hp.exclusive c).resolve_right (by simp [hn])
  have hs' : s'.task = s₂.task := by rw [hm.handOver]; rfl
  have hlog : s'.log = s₂.log ++ [.pinged c] := by rw [hm.handOver]; rfl
  have hvac := hm.vacated
  rcases hcase with ⟨rfl, -, rfl⟩ | ⟨hst, -, rfl⟩
  · -- The task was just made current, so it is the one that is evicted.
    cases hvac with
    | idle hidle => cases reapedOk_current.symm.trans hidle
    | @evicted p l hcur hl _ _ =>
        cases reapedOk_current.symm.trans hcur
        have hself : s'.task t =
            .live { l with prioBoost := true, runState := .queued } := by
          rw [hs', unscheduled_task, Function.update_self]
        refine ⟨t, k, _, .complete,
          [.unscheduled c t ((reapedOk s c t k).req c), .pinged c], hn, hk,
          ⟨hself, rfl, hp'.at_queued hself (Set.notMem_empty t) rfl⟩, ?_,
          fun _ => rfl, fun hf => absurd rfl hf, fun u hu => ?_⟩
        · rw [hlog]
          show ((s.log ++ [_]) ++ [_]) ++ [_] = _
          simp
        · rw [hs', unscheduled_task, Function.update_of_ne hu]
          exact setTask_task_ne hu
  · cases hvac with
    | evicted hcur _ _ _ =>
        rw [reapedFail_current, hnone] at hcur
        cases hcur
    | idle _ =>
        have hself : s'.task t = .live { k with
            cpu := none, startSubmit := none, runState := .queued } :=
          hs' ▸ setTask_task_self _ t _
        refine ⟨t, k, _, st, [.pinged c], hn, hk,
          ⟨hself, rfl, hp'.at_queued hself (Set.notMem_empty t) rfl⟩, ?_,
          fun hf => absurd hf hst, fun _ => rfl, fun u hu => ?_⟩
        · rw [hlog]
          show (s.log ++ [_]) ++ [_] = _
          simp
        · rw [hs']
          exact setTask_task_ne hu

theorem Migrated.movedTo (hm : Migrated cfg env s c s₁ s₂ s')
    (hp : Placed s ∅) (hp' : Placed s' ∅) (hfree : GlobalFree cfg s) :
    MovedTo cfg env s c s' := by
  obtain ⟨hcur, hnext, hother, -⟩ := hm.vacated.cpu hm.settled.next
  have hcpu : s'.cpuStates = s₂.cpuStates := by rw [hm.handOver]; rfl
  have hglobal : s'.globalCpuid = c := by rw [hm.handOver]; rfl
  have hmem : c ∈ cfg.cpus := by
    rcases hm.target.choice with ⟨rfl, -⟩ | ⟨hc, -⟩
    · exact hfree.home
    · exact hc
  have hchoice : (c = s.globalHomeCpu ∧
      ∃ d ∈ cfg.cpus, env.homeAvailable d = true) ∨ (env.available c = true ∧
      cfg.topology.numaNode c = cfg.topology.numaNode s.globalHomeCpu) :=
    hm.target.choice.imp id fun hc => ⟨hc.2.1, hc.2.2.1⟩
  have hothers : ∀ d, d ≠ c → s'.cpuStates d = s.cpuStates d := fun d hd => by
    rw [hcpu, hother d hd, hm.settled.confined.cpuStates d hd]
  have hempty : (s'.cpuStates c).current = none ∧
      (s'.cpuStates c).next = none := by
    rw [hcpu]
    exact ⟨hcur, hnext⟩
  rcases hm.settled with ⟨hnone, hpoll, -⟩ | ⟨b, hreap⟩
  · obtain ⟨hevicted, htasks⟩ := hm.of_polled hp' hpoll
    refine ⟨hglobal, hm.target.moved, hmem, hchoice, hempty, hothers, hevicted,
      fun t ht => ?_, fun u hu _ => htasks u hu⟩
    cases hnone.symm.trans ht
  · obtain ⟨t, k, k', st, evs, hn, hk, hreq, hlog, hok, hfail, htasks⟩ :=
      hm.of_reaped hp hp' hreap
    refine ⟨hglobal, hm.target.moved, hmem, hchoice, hempty, hothers,
      fun p hcp => ?_, fun t' ht' => ?_, fun u _ hu => htasks u ?_⟩
    · rw [(hp.exclusive c).resolve_right (by simp [hn])] at hcp
      cases hcp
    · cases hn.symm.trans ht'
      exact ⟨k, k', st, evs, hk, hreq, hlog, hok, hfail⟩
    · intro hut
      exact hu (hut ▸ hn)

end Target

/-- In every reachable state the global agent's CPU has no task, and a
migration does nothing or moves the global agent to another available CPU of
the enclave, its home or one on the node of its home, and puts the task it
finds there back into a run queue. It does return, in the runs whose tasks
depart while blocked, if its unschedule commit succeeds. -/
theorem migration_keeps_global_free {cfg : Config} {s : NetScheduler}
    (h : Reachable cfg s) :
    (s.cpuStates s.globalCpuid).current = none ∧
    (s.cpuStates s.globalCpuid).next = none ∧
    ∀ env,
      (∀ s', pickNextGlobalCpu cfg env s = .ok ((), s') →
        s' = s ∨ ∃ c, MovedTo cfg env s c s') ∧
      (CleanReachable cfg s → env.commit = .complete →
        ∃ s', pickNextGlobalCpu cfg env s = .ok ((), s')) := by
  have hfree := globalFree_of_reachable h
  have hp := (sound_of_reachable h).placed
  refine ⟨hfree.current, hfree.next, fun env => ⟨fun s' hok => ?_, ?_⟩⟩
  · rcases pickNextGlobalCpu_cases hp hok with rfl | ⟨c, s₁, s₂, hm⟩
    · exact Or.inl rfl
    · have hp' := hp.moves (pickNextGlobalCpu_moves hp hok)
      exact Or.inr ⟨c, hm.movedTo hp hp' hfree⟩
  · intro hclean hcommit
    have hsucc : (pickNextGlobalCpu cfg env).Succeeds s :=
      pickNextGlobalCpu_succeeds hp (intact_of_cleanReachable hclean) hcommit
    obtain ⟨⟨u, s'⟩, hok⟩ := hsucc
    exact ⟨s', hok⟩

/-- The global agent moves to the CPU of a task whose transaction it has not
reaped: the task was running, and is queued with a boost. -/
theorem migration_keeps_global_free_pending :
    ∃ s s', Reachable twoCpus s ∧ (s.cpuStates 1).next = some 0 ∧
      pickNextGlobalCpu twoCpus calmMigration s = .ok ((), s') ∧
      MovedTo twoCpus calmMigration s 1 s' ∧ s'.runQueueLowPriority = [0] := by
  have hrun : ∃ s s', performAll twoCpus
      [newTask 0 false true "app", .globalSchedule calmRound] twoCpusStart =
        .ok ((), s) ∧
      (s.cpuStates 1).next = some 0 ∧
      pickNextGlobalCpu twoCpus calmMigration s = .ok ((), s') ∧
      s.globalCpuid = 0 ∧ s'.globalCpuid = 1 ∧ s'.runQueueLowPriority = [0] :=
    ⟨_, _, rfl, rfl, rfl, rfl, rfl, rfl⟩
  obtain ⟨s, s', hrun, hnext, hok, hglobal, hglobal', hq⟩ := hrun
  have hreach : Reachable twoCpus s :=
    reach_performAll (.init twoCpusStart_init) (fun _ _ _ => trivial) hrun
  refine ⟨s, s', hreach, hnext, hok, ?_, hq⟩
  rcases ((migration_keeps_global_free hreach).2.2 calmMigration).1 s' hok with
    rfl | ⟨c, hmoved⟩
  · cases hglobal.symm.trans hglobal'
  · have hc : c = 1 := hmoved.global.symm.trans hglobal'
    exact hc ▸ hmoved

/-! ## Switchto chains -/

/-- A search that may always go home does. -/
theorem findTarget_home {cfg : Config} {env : MigrateEnv} {cs : List CpuId}
    {g c : CpuId} {s s' : NetScheduler} {o : Option CpuId} {st : TxnState}
    (hhome : s.globalHomeCpu ≠ g)
    (hav : env.homeAvailable c = true) (hans : env.homeAnswer c = some st)
    (h : findTarget cfg env g (c :: cs) s = .ok (o, s')) :
    o = some s.globalHomeCpu := by
  rw [findTarget, Checked.bind_ok] at h
  obtain ⟨target, s₁, hsearch, h⟩ := h
  rw [searchCpu, Checked.bind_ok] at hsearch
  obtain ⟨home, s₂, htry, hsearch⟩ := hsearch
  rcases tryHome_ok htry with ⟨rfl, -⟩ | ⟨rfl, -, -, hset⟩
  · simp only [tryHome, Checked.bind_get] at htry
    rw [if_pos (by simp [hhome, hav]), hans] at htry
    obtain ⟨done, s₃, hcom, htry⟩ := Checked.bind_ok.mp htry
    cases done with
    | true =>
        obtain ⟨b, s₄, -, htry⟩ := Checked.bind_ok.mp htry
        cases Checked.pure_ok.mp htry
    | false =>
        obtain ⟨-, hreq⟩ := (committed_ok hcom).2.2 rfl
        simp [committed, hreq] at hcom
  · simp only [if_true, Checked.bind_get] at hsearch
    cases Checked.pure_ok.mp hsearch
    cases Checked.pure_ok.mp h
    rw [hset.confined.globalHomeCpu]

/-- Of the two branches, only the one for the home CPU takes a CPU with a
chain. -/
theorem chain_target_home {cfg : Config} {env : MigrateEnv}
    {s s' : NetScheduler} (hp : Placed s ∅)
    (hok : pickNextGlobalCpu cfg env s = .ok ((), s'))
    (hmoved : s'.globalCpuid ≠ s.globalCpuid)
    (hsw : (s.cpuStates s'.globalCpuid).inSwitchto = true) :
    s'.globalCpuid = s.globalHomeCpu := by
  rcases pickNextGlobalCpu_cases hp hok with rfl | ⟨c, s₁, s₂, hm⟩
  · exact absurd rfl hmoved
  · have hc : s'.globalCpuid = c := by rw [hm.handOver]; rfl
    rcases hm.target.choice with ⟨hhome, -⟩ | ⟨-, -, -, hfree⟩
    · exact hc.trans hhome
    · rw [hc, hfree] at hsw
      cases hsw

/-- While every CPU is available, a migration from elsewhere goes home. -/
theorem calmMigration_home {cfg : Config} {s s' : NetScheduler}
    (hmem : s.globalHomeCpu ∈ cfg.cpus)
    (hne : s.globalHomeCpu ≠ s.globalCpuid)
    (hok : pickNextGlobalCpu cfg calmMigration s = .ok ((), s')) :
    s'.globalCpuid = s.globalHomeCpu := by
  rw [pickNextGlobalCpu, Checked.bind_get] at hok
  obtain ⟨target, s₁, hfind, hmig⟩ := Checked.bind_ok.mp hok
  obtain ⟨d, ds, hds⟩ :=
    List.exists_cons_of_ne_nil (List.ne_nil_of_mem hmem)
  rw [show cfg.cpus.ids = d :: ds from hds] at hfind
  rw [findTarget_home hne rfl rfl hfind] at hmig
  obtain ⟨s₂, s₃, -, -, rfl⟩ := migrateTo_cases hmig
  rfl

/-- The only CPU with a switchto chain that a migration can move to is the
home CPU; it does not if the global agent is at home or there is no chain on
the home CPU, and otherwise it can. -/
theorem migration_avoids_switchto_iff {cfg : Config} {s : NetScheduler}
    (h : Reachable cfg s) :
    (∀ env s', pickNextGlobalCpu cfg env s = .ok ((), s') →
      s'.globalCpuid ≠ s.globalCpuid →
      (s.cpuStates s'.globalCpuid).inSwitchto = true →
      s'.globalCpuid = s.globalHomeCpu) ∧
    (s.globalHomeCpu = s.globalCpuid ∨
        (s.cpuStates s.globalHomeCpu).inSwitchto = false →
      ∀ env s', pickNextGlobalCpu cfg env s = .ok ((), s') →
        s'.globalCpuid ≠ s.globalCpuid →
        (s.cpuStates s'.globalCpuid).inSwitchto = false) ∧
    (CleanReachable cfg s → s.globalHomeCpu ≠ s.globalCpuid →
      (s.cpuStates s.globalHomeCpu).inSwitchto = true →
      ∃ env s', pickNextGlobalCpu cfg env s = .ok ((), s') ∧
        s'.globalCpuid ≠ s.globalCpuid ∧
        (s.cpuStates s'.globalCpuid).inSwitchto = true) := by
  have hp := (sound_of_reachable h).placed
  refine ⟨fun env s' => chain_target_home hp, fun hcase env s' hok hmoved => ?_,
    fun hclean hne hsw => ?_⟩
  · by_contra hsw
    have hhome := chain_target_home hp hok hmoved (by simpa using hsw)
    rcases hcase with hglobal | hfree
    · exact hmoved (hhome.trans hglobal)
    · rw [hhome] at hsw
      exact hsw hfree
  · have hsucc : (pickNextGlobalCpu cfg calmMigration).Succeeds s :=
      pickNextGlobalCpu_succeeds hp (intact_of_cleanReachable hclean) rfl
    obtain ⟨⟨u, s'⟩, hok⟩ := hsucc
    have hhome := calmMigration_home (globalFree_of_reachable h).home hne hok
    exact ⟨calmMigration, s', hok, by rw [hhome]; exact hne,
      by rw [hhome]; exact hsw⟩

/-- The global agent returns to its home CPU, where no chain runs. -/
theorem migration_avoids_switchto_iff_return :
    ∃ s s', Reachable twoCpus s ∧ s.globalCpuid = 1 ∧
      pickNextGlobalCpu twoCpus calmMigration s = .ok ((), s') ∧
      s'.globalCpuid = 0 ∧ (s.cpuStates s'.globalCpuid).inSwitchto = false := by
  have hrun : ∃ s s', performAll twoCpus
      [newTask 0 false true "app", .pickNextGlobalCpu calmMigration,
        .globalSchedule calmRound] twoCpusStart = .ok ((), s) ∧
      s.globalCpuid = 1 ∧ (s.cpuStates s.globalHomeCpu).inSwitchto = false ∧
      pickNextGlobalCpu twoCpus calmMigration s = .ok ((), s') ∧
      s'.globalCpuid = 0 := ⟨_, _, rfl, rfl, rfl, rfl, rfl⟩
  obtain ⟨s, s', hrun, hglobal, hfree, hok, hglobal'⟩ := hrun
  have hreach : Reachable twoCpus s :=
    reach_performAll (.init twoCpusStart_init) (fun _ _ _ => trivial) hrun
  refine ⟨s, s', hreach, hglobal, hok, hglobal', ?_⟩
  refine (migration_avoids_switchto_iff hreach).2.1 (Or.inr hfree)
    calmMigration s' hok ?_
  rw [hglobal, hglobal']
  decide

/-- While the global agent is away, a task on its home CPU switches to
another; the next migration takes that CPU. -/
theorem migration_home_into_switchto :
    ∃ s s', CleanReachable twoCpus s ∧ s.globalCpuid = 1 ∧
      (s.cpuStates 0).inSwitchto = true ∧ (s.cpuStates 0).current = none ∧
      pickNextGlobalCpu twoCpus calmMigration s = .ok ((), s') ∧
      s'.globalCpuid = 0 ∧ (s'.cpuStates 0).inSwitchto = true := by
  have hrun : ∃ s s', performAll twoCpus
      [newTask 0 false true "app", .pickNextGlobalCpu calmMigration,
        .globalSchedule calmRound, .globalSchedule calmRound,
        .taskSwitchto 0 ⟨2, 0, false, 0, none⟩] twoCpusStart = .ok ((), s) ∧
      s.globalCpuid = 1 ∧ (s.cpuStates 0).inSwitchto = true ∧
      (s.cpuStates 0).current = none ∧
      pickNextGlobalCpu twoCpus calmMigration s = .ok ((), s') ∧
      s'.globalCpuid = 0 ∧ (s'.cpuStates 0).inSwitchto = true :=
    ⟨_, _, rfl, rfl, rfl, rfl, rfl, rfl, rfl⟩
  obtain ⟨s, s', hrun, hs⟩ := hrun
  exact ⟨s, s', reach_performAll (.init twoCpusStart_init)
    (by simp [newTask, departsBlocked]) hrun, hs⟩

end GhostDataplane.Agent
