import GhostDataplane.Proofs.Placement

/-!
# The turns of a round and the stages of a migration

A scheduling round is a chain of turns: a CPU is settled, a task is taken off
a run queue and dealt with, a yielding task goes back. `RoundTurn` lists them
with what the round knows when it takes them, above all that no CPU it deals
with is that of the global agent, and `globalSchedule_invariant` is the rule
for everything that a turn preserves.

A migration either finds no CPU to move to and does nothing at all, or it
settles one, takes the task off it and moves there. `Migrated` is that, with
what the search has found out about the CPU.
-/

namespace GhostDataplane.Agent

open GhostDataplane.Lib

/-! ## Rounds -/

/-- All that a turn of a round can do. -/
inductive RoundTurn (cfg : Config) (env : RoundEnv) (s : NetScheduler) :
    NetScheduler → Prop where
  | settled {c : CpuId} {s' : NetScheduler} (hset : Settled c s s') :
      RoundTurn cfg env s s'
  | assigned {n : TaskId} {k : NetTask} {a a' : Assign}
      {s₁ s' : NetScheduler} (ht : Taken s n k s₁)
      (has : AssignStep cfg env n k s₁ a s' a')
      (hidle : ∀ c ∈ a.availCpus, c ≠ s.globalCpuid)
      (hlow : ∀ c ∈ a.availCpusLowPriority, c ≠ s.globalCpuid) :
      RoundTurn cfg env s s'
  | submitted {cpus : CpuList} : RoundTurn cfg env s (s.note (.submitted cpus))
  | requeued {t : TaskId} {k : NetTask} {ts : List TaskId}
      (hk : s.task t = .live k) (hy : s.yieldingTasks = t :: ts) :
      RoundTurn cfg env s
        { (s.setTask t { k with runState := .queued }).push t k with
          yieldingTasks := ts }
  | bumped {unavail : Nat} : RoundTurn cfg env s (bumpCpuhist unavail s)

section Round

variable {cfg : Config} {env : RoundEnv} {s s' : NetScheduler}

theorem RoundTurn.moves (hp : Placed s ∅) (h : RoundTurn cfg env s s') :
    Moves s ∅ s' ∅ := by
  cases h with
  | settled hset => exact hset.moves hp
  | assigned ht has _ _ => exact has.moves ht
  | submitted => exact Move.submit.moves
  | @requeued t k ts hk hy =>
      have henq := Move.enqueue (s := { s with yieldingTasks := ts }) hk
        (Set.mem_insert t ∅)
      rw [insert_diff (Set.notMem_empty t)] at henq
      exact .head (.unyield hk hy) henq.moves
  | bumped => exact Move.bump.moves

theorem RoundTurn.placed (hp : Placed s ∅) (h : RoundTurn cfg env s s') :
    Placed s' ∅ := hp.moves (h.moves hp)

variable {I : NetScheduler → Prop}

/-- What survives every turn survives the scan. -/
theorem scanCpus_turns
    (hturn : ∀ s s', Placed s ∅ → I s → RoundTurn cfg env s s' → I s')
    {cs : List CpuId} {a a' : Scan} (hp : Placed s ∅) (hi : I s)
    (h : scanCpus env cs a s = .ok (a', s')) : Placed s' ∅ ∧ I s' := by
  refine scanCpus_invariant (I := fun s => Placed s ∅ ∧ I s) ?_ ⟨hp, hi⟩ h
  intro c _ s a s' a' hs hstep
  rcases hstep.same_or_settled with rfl | hset
  · exact hs
  · exact ⟨hs.1.moves (hset.moves hs.1), hturn s s' hs.1 hs.2 (.settled hset)⟩

/-- What survives every turn survives the assignment loop. -/
theorem assignLoop_turns
    (hturn : ∀ s s', Placed s ∅ → I s → RoundTurn cfg env s s' → I s')
    {s₀ : NetScheduler} {fuel : Nat} {a a' : Assign} (hp : Placed s ∅)
    (ho : Offers cfg env s₀ s a.availCpus a.availCpusLowPriority) (hi : I s)
    (h : assignLoop cfg env fuel a s = .ok (a', s')) : I s' := by
  refine (assignLoop_invariant (I := fun s a =>
    Offers cfg env s₀ s a.availCpus a.availCpusLowPriority ∧ I s) ?_ hp
    ⟨ho, hi⟩ h).2
  intro s a n k s₁ s' a' hp hs ht has
  refine ⟨has.offers ht hs.1, hturn s s' hp hs.2 (.assigned ht has ?_ ?_)⟩
  · exact fun c hc => (hs.1.idle c hc).notGlobal
  · exact fun c hc => (hs.1.candidate c hc).notGlobal

/-- What survives every turn survives the return of the yielding tasks. -/
theorem requeue_turns
    (hturn : ∀ s s', Placed s ∅ → I s → RoundTurn cfg env s s' → I s')
    {ts : List TaskId} {u : Unit} (hp : Placed { s with yieldingTasks := ts } ∅)
    (hi : I { s with yieldingTasks := ts })
    (h : requeue ts s = .ok (u, s')) :
    Placed { s' with yieldingTasks := [] } ∅ ∧
      I { s' with yieldingTasks := [] } := by
  induction ts generalizing s with
  | nil =>
      cases Checked.pure_ok.mp h
      exact ⟨hp, hi⟩
  | cons t ts ih =>
      obtain ⟨k, hk, h⟩ := bind_deref.mp h
      obtain ⟨-, h⟩ := bind_check.mp h
      rw [Checked.bind_eq (enqueue_eq hk)] at h
      have hstep : RoundTurn cfg env { s with yieldingTasks := t :: ts }
          { (s.setTask t { k with runState := .queued }).push t k with
            yieldingTasks := ts } :=
        .requeued (s := { s with yieldingTasks := t :: ts }) hk rfl
      exact ih (hstep.placed hp) (hturn _ _ hp hi hstep) h

/-- What survives every turn survives the round. -/
theorem globalSchedule_invariant
    (hturn : ∀ s s', Placed s ∅ → I s → RoundTurn cfg env s s' → I s')
    (hp : Placed s ∅) (hi : I s)
    (h : globalSchedule cfg env s = .ok ((), s')) : I s' := by
  obtain ⟨scan, s₁, a, s₂, s₃, s₄, hround⟩ := globalSchedule_round h
  obtain ⟨hp₁, hi₁⟩ := scanCpus_turns hturn hp hi hround.scanned
  have hp₂ := hp₁.moves (hround.moves_assign hp)
  have hi₂ := assignLoop_turns hturn hp₁ (scan_offers hround.scanned) hi₁
    hround.assigned
  have hs₃ : Placed s₃ ∅ ∧ I s₃ := by
    rcases hround.submitted with rfl | rfl
    · exact ⟨hp₂, hi₂⟩
    · exact ⟨hp₂.moves Move.submit.moves, hturn _ _ hp₂ hi₂ .submitted⟩
  obtain ⟨hp₄, hi₄⟩ := requeue_turns hturn (s := s₃) hs₃.1 hs₃.2 hround.requeued
  rw [hround.finished]
  exact hturn _ _ hp₄ hi₄ .bumped

/-- A round is a chain of turns. -/
theorem globalSchedule_turns (hp : Placed s ∅)
    (h : globalSchedule cfg env s = .ok ((), s')) :
    Relation.ReflTransGen (RoundTurn cfg env) s s' :=
  globalSchedule_invariant (I := Relation.ReflTransGen (RoundTurn cfg env) s)
    (fun _ _ _ hchain hturn => hchain.tail hturn) hp .refl h

end Round

/-! ## Migrations -/

/-- What the search knows about the CPU it has chosen: it is the home CPU, or
another one that shares its node and has no switchto chain on it. -/
structure Target (cfg : Config) (env : MigrateEnv) (s : NetScheduler)
    (c : CpuId) : Prop where
  moved : c ≠ s.globalCpuid
  choice : (c = s.globalHomeCpu ∧ ∃ d ∈ cfg.cpus, env.homeAvailable d = true) ∨
    (c ∈ cfg.cpus ∧ env.available c = true ∧
      cfg.topology.numaNode c = cfg.topology.numaNode s.globalHomeCpu ∧
      (s.cpuStates c).inSwitchto = false)

/-- The CPU gives up the task it runs, if it runs one. -/
inductive Vacated (c : CpuId) (s : NetScheduler) : NetScheduler → Prop where
  | idle (hcur : (s.cpuStates c).current = none) : Vacated c s s
  | evicted {p : TaskId} {k : NetTask} (hcur : (s.cpuStates c).current = some p)
      (hk : s.task p = .live k) (hon : k.runState = .onCpu)
      (hcpu : k.cpu = some c) : Vacated c s (s.unscheduled c p k)

theorem vacateTarget_cases {env : MigrateEnv} {c : CpuId}
    {s s' : NetScheduler} {H : Set TaskId} (hp : Placed s H)
    (h : vacateTarget env c (s.cpuStates c).current s = .ok ((), s')) :
    Vacated c s s' := by
  cases hcur : (s.cpuStates c).current with
  | none =>
      rw [hcur] at h
      cases Checked.pure_ok.mp h
      exact .idle hcur
  | some p =>
      rw [hcur] at h
      obtain ⟨k, hk⟩ := vacateTarget_live h
      obtain ⟨-, hon, hcpu⟩ := hp.at_current hk hcur
      obtain ⟨-, rfl⟩ := (vacateTarget_ok hk hon hcpu).mp h
      exact .evicted hcur hk hon hcpu

/-- The global agent moved to `c`: the CPU was settled, vacated and taken
over. -/
structure Migrated (cfg : Config) (env : MigrateEnv) (s : NetScheduler)
    (c : CpuId) (s₁ s₂ s' : NetScheduler) : Prop where
  target : Target cfg env s c
  settled : Settled c s s₁
  vacated : Vacated c s₁ s₂
  handOver : s' = s₂.handOver c

/-- Settling a CPU a second time does nothing. -/
theorem Settled.again {c : CpuId} {s s₁ s' : NetScheduler}
    (h : Settled c s s₁) (h' : Settled c s₁ s') : s' = s₁ := by
  obtain ⟨st, hst⟩ := h.committed
  rcases h' with ⟨-, hpoll, -⟩ | ⟨b, t, k, st', hn, -⟩
  · rcases hpoll with rfl | ⟨st', hf, -⟩
    · rfl
    · cases hst.symm.trans hf
  · cases h.next.symm.trans hn

theorem SearchTurn.target {cfg : Config} {env : MigrateEnv} {c target : CpuId}
    {s s' : NetScheduler} (hc : c ∈ cfg.cpus)
    (h : SearchTurn cfg env s.globalCpuid c s (some target) s') :
    Target cfg env s target := by
  cases h with
  | home hne hav _ => exact ⟨hne, Or.inl ⟨rfl, c, hc, hav⟩⟩
  | here hne hav hnode hsw _ _ =>
      exact ⟨hne, Or.inr ⟨hc, hav, hnode, hsw⟩⟩

/-- All that a migration can do. -/
theorem pickNextGlobalCpu_cases {cfg : Config} {env : MigrateEnv}
    {s s' : NetScheduler} (hp : Placed s ∅)
    (h : pickNextGlobalCpu cfg env s = .ok ((), s')) :
    s' = s ∨ ∃ c s₁ s₂, Migrated cfg env s c s₁ s₂ s' := by
  rw [pickNextGlobalCpu, Checked.bind_get, Checked.bind_ok] at h
  obtain ⟨target, s₀, hfind, h⟩ := h
  rcases findTarget_cases hfind with ⟨rfl, rfl⟩ | ⟨c, rfl, d, hd, hturn⟩
  · cases Checked.pure_ok.mp h
    exact Or.inl rfl
  · obtain ⟨s₁, s₂, hset, hvac, rfl⟩ := migrateTo_cases h
    have hset' : Settled c s s₁ := by
      rcases hturn.settled with hhome | hpoll
      · rw [hhome.again hset]
        exact hhome
      · exact hset.of_polled hpoll
    have hp₁ := hp.moves (hset'.moves hp)
    exact Or.inr ⟨c, s₁, s₂, hturn.target hd, hset',
      vacateTarget_cases hp₁ hvac, rfl⟩

end GhostDataplane.Agent
