import GhostDataplane.Proofs.Loop
import GhostDataplane.Proofs.Placement

/-!
# Which CPU is picked, and whom that evicts

`PickNextCpu` goes through five stages, from the CPU that the task ran on
last to any CPU at all, and takes the lowest CPU of the first stage that has
one. Put together the stages are one order: `distance` is the number of the
stage in which a CPU would be found, and the CPU that is picked is the least
of the allowed ones by distance and, at equal distance, by id.

The same function chooses the victim of an eviction. It is given the
preemption candidates and the task that comes in, and it looks at nothing
else: neither at the tasks that run on the candidates nor at their names. So
whether memcached is spared while a firewall thread could go is a matter of
which of them runs closer to where the incoming task ran last.
-/

namespace GhostDataplane.Agent

open GhostDataplane.Lib

/-! ## The order of the CPUs -/

/-- How far a CPU is from the one the task ran on last. Without a last one
all are alike. -/
def distance (topology : Topology) (previous : Option CpuId) (c : CpuId) :
    Nat :=
  match previous with
  | none => 0
  | some p =>
      if c = p then 0
      else if c ∈ topology.siblings p then 1
      else if c ∈ topology.l3Siblings p then 2
      else if topology.numaNode p = topology.numaNode c then 3
      else 4

/-- `c` is closer than `d`, or as close and not above it. -/
def NoFarther (topology : Topology) (previous : Option CpuId) (c d : CpuId) :
    Prop :=
  distance topology previous c < distance topology previous d ∨
    distance topology previous c = distance topology previous d ∧ c ≤ d

/-- The closest CPU of a list. -/
def Closest (topology : Topology) (previous : Option CpuId) (l : CpuList)
    (c : CpuId) : Prop :=
  c ∈ l ∧ ∀ d ∈ l, NoFarther topology previous c d

theorem Closest.unique {topology : Topology} {previous : Option CpuId}
    {l : CpuList} {c d : CpuId} (hc : Closest topology previous l c)
    (hd : Closest topology previous l d) : c = d := by
  rcases hc.2 d hd.1 with hlt | ⟨heq, hle⟩
  · rcases hd.2 c hc.1 with hlt' | ⟨heq', -⟩ <;> omega
  · rcases hd.2 c hc.1 with hlt' | ⟨-, hle'⟩
    · omega
    · exact Nat.le_antisymm hle hle'

theorem CpuList.front_le {l : CpuList} {c d : CpuId} (h : l.front = some c)
    (hd : d ∈ l) : c ≤ d := by
  obtain ⟨rest, hids⟩ := List.head?_eq_some_iff.mp h
  have hsorted := l.sorted
  rw [CpuList.mem_def, hids] at hd
  rw [hids] at hsorted
  rcases List.mem_cons.mp hd with rfl | hmem
  · exact Nat.le_refl _
  · exact Nat.le_of_lt ((List.pairwise_cons.mp hsorted).1 d hmem)

theorem CpuList.find_le {l : CpuList} {c d : CpuId} {P : CpuId → Bool}
    (h : l.ids.find? P = some c) (hd : d ∈ l) (hP : P d = true) : c ≤ d := by
  obtain ⟨-, before, after, hids, hbefore⟩ := List.find?_eq_some_iff_append.mp h
  have hsorted := l.sorted
  rw [CpuList.mem_def, hids] at hd
  rw [hids] at hsorted
  rcases List.mem_append.mp hd with hmem | hmem
  · have hno := hbefore d hmem
    rw [hP] at hno
    cases hno
  · rcases List.mem_cons.mp hmem with rfl | hmem
    · exact Nat.le_refl _
    · have hrest := (List.pairwise_append.mp hsorted).2.1
      exact Nat.le_of_lt ((List.pairwise_cons.mp hrest).1 d hmem)

section Stages

variable {topology : Topology} {p c d : CpuId} {l : CpuList}

theorem distance_of_sibling (hc : c ≠ p) (hs : c ∈ topology.siblings p) :
    distance topology (some p) c = 1 := by
  simp [distance, hc, hs]

theorem distance_of_l3Sibling (hc : c ≠ p) (hs : c ∉ topology.siblings p)
    (hl : c ∈ topology.l3Siblings p) : distance topology (some p) c = 2 := by
  simp [distance, hc, hs, hl]

theorem distance_of_numaNode (hc : c ≠ p) (hs : c ∉ topology.siblings p)
    (hl : c ∉ topology.l3Siblings p)
    (hn : topology.numaNode p = topology.numaNode c) :
    distance topology (some p) c = 3 := by
  simp [distance, hc, hs, hl, hn]

theorem distance_of_far (hc : c ≠ p) (hs : c ∉ topology.siblings p)
    (hl : c ∉ topology.l3Siblings p)
    (hn : topology.numaNode p ≠ topology.numaNode c) :
    distance topology (some p) c = 4 := by
  simp [distance, hc, hs, hl, hn]

/-- The stages, for a CPU list without the last CPU: what each of them says
about the CPUs that are in the list. -/
theorem distance_of_ne (topology : Topology) (hc : c ≠ p) :
    (distance topology (some p) c = 1 ∧ c ∈ topology.siblings p) ∨
    (distance topology (some p) c = 2 ∧ c ∈ topology.l3Siblings p) ∨
    (distance topology (some p) c = 3 ∧
      topology.numaNode p = topology.numaNode c) ∨
    distance topology (some p) c = 4 := by
  by_cases hs : c ∈ topology.siblings p
  · exact Or.inl ⟨distance_of_sibling hc hs, hs⟩
  refine Or.inr ?_
  by_cases hl : c ∈ topology.l3Siblings p
  · exact Or.inl ⟨distance_of_l3Sibling hc hs hl, hl⟩
  refine Or.inr ?_
  by_cases hn : topology.numaNode p = topology.numaNode c
  · exact Or.inl ⟨distance_of_numaNode hc hs hl hn, hn⟩
  · exact Or.inr (distance_of_far hc hs hl hn)

theorem not_mem_of_front_none {m : CpuList}
    (h : (l.intersection m).front = none) (hd : d ∈ l) : d ∉ m := by
  intro hm
  exact CpuList.isEmpty_iff.mp (CpuList.front_eq_none.mp h) d
    (CpuList.mem_intersection.mpr ⟨hd, hm⟩)

theorem noFarther_self : NoFarther topology (some p) p d := by
  by_cases hd : d = p
  · rw [hd]
    exact Or.inr ⟨rfl, Nat.le_refl p⟩
  · refine Or.inl ?_
    have hzero : distance topology (some p) p = 0 := if_pos rfl
    rcases distance_of_ne topology hd with h | h | h | h <;> omega

/-- Nothing in the list is closer than the stage, and `c` is the first that
the stage finds. -/
theorem noFarther_of_stage {i : Nat}
    (hc : distance topology (some p) c = i)
    (hd : i < distance topology (some p) d ∨
      distance topology (some p) d = i ∧ c ≤ d) :
    NoFarther topology (some p) c d := by
  rcases hd with hlt | ⟨heq, hle⟩
  · exact Or.inl (hc ▸ hlt)
  · exact Or.inr ⟨hc.trans heq.symm, hle⟩

end Stages

/-- `PickNextCpu` picks the closest of the allowed CPUs. -/
theorem pickNextCpu_closest {topology : Topology} {avail : CpuList}
    {k : NetTask} {enforce : Bool} {c : CpuId}
    (h : pickNextCpu topology avail k enforce = some c) :
    Closest topology k.cpu (allowedCpus avail k enforce) c := by
  refine ⟨mem_allowedCpus.mpr (pickNextCpu_mem h), fun d hd => ?_⟩
  have hc := mem_allowedCpus.mpr (pickNextCpu_mem h)
  unfold pickNextCpu at h
  simp only [← allowedCpus.eq_def] at h
  split at h
  · cases h
  cases hcpu : k.cpu with
  | none =>
      simp only [hcpu] at h
      exact Or.inr ⟨rfl, CpuList.front_le h hd⟩
  | some p =>
      simp only [hcpu] at h
      split at h
      · cases h
        exact noFarther_self
      next hnot =>
      -- From here on the last CPU itself is not among the allowed ones.
      have hp : ∀ e ∈ allowedCpus avail k enforce, e ≠ p := by
        rintro e he rfl
        exact hnot (CpuList.isSet_iff.mpr he)
      have hcp := hp c hc
      have hdd := distance_of_ne topology (hp d hd)
      split at h
      · next hsib =>
          cases h
          have hmem := (CpuList.mem_intersection.mp (CpuList.front_mem hsib)).2
          refine noFarther_of_stage (distance_of_sibling hcp hmem) ?_
          rcases hdd with ⟨h1, hs⟩ | hdd
          · exact Or.inr ⟨h1,
              CpuList.front_le hsib (CpuList.mem_intersection.mpr ⟨hd, hs⟩)⟩
          · omega
      next hnosib =>
      have hcs := not_mem_of_front_none hnosib hc
      have hds := not_mem_of_front_none hnosib hd
      split at h
      · next hl3 =>
          cases h
          have hmem := (CpuList.mem_intersection.mp (CpuList.front_mem hl3)).2
          refine noFarther_of_stage (distance_of_l3Sibling hcp hcs hmem) ?_
          rcases hdd with ⟨-, hs⟩ | ⟨h2, hl⟩ | hdd
          · exact absurd hs hds
          · exact Or.inr ⟨h2,
              CpuList.front_le hl3 (CpuList.mem_intersection.mpr ⟨hd, hl⟩)⟩
          · omega
      next hnol3 =>
      have hcl := not_mem_of_front_none hnol3 hc
      have hdl := not_mem_of_front_none hnol3 hd
      split at h
      · next hfind =>
          cases h
          have hnode := List.find?_some hfind
          rw [decide_eq_true_eq] at hnode
          refine noFarther_of_stage (distance_of_numaNode hcp hcs hcl hnode) ?_
          rcases hdd with ⟨-, hs⟩ | ⟨-, hl⟩ | ⟨h3, hn⟩ | h4
          · exact absurd hs hds
          · exact absurd hl hdl
          · exact Or.inr ⟨h3, CpuList.find_le hfind hd (by simpa using hn)⟩
          · omega
      · next hnofind =>
          have hfar : ∀ e ∈ allowedCpus avail k enforce,
              topology.numaNode p ≠ topology.numaNode e := fun e he => by
            simpa using List.find?_eq_none.mp hnofind e he
          exact Or.inr ⟨(distance_of_far hcp hcs hcl (hfar c hc)).trans
            (distance_of_far (hp d hd) hds hdl (hfar d hd)).symm,
            CpuList.front_le h hd⟩

theorem distance_le_of_noFarther {topology : Topology} {previous : Option CpuId}
    {c d : CpuId} (h : NoFarther topology previous c d) :
    distance topology previous c ≤ distance topology previous d := by
  rcases h with hlt | ⟨heq, -⟩
  · exact Nat.le_of_lt hlt
  · exact Nat.le_of_eq heq

/-- Whatever CPUs are available and whatever the topology: no CPU is picked
exactly if none is allowed; the one that is picked is allowed, and for a task
with a last CPU no other one that is allowed is in a better class. The classes
are the values of `distance`, each of which excludes only the classes before
it. -/
theorem pick_sound_complete_optimal (topology : Topology) (avail : CpuList)
    (k : NetTask) (enforce : Bool) :
    (pickNextCpu topology avail k enforce = none ↔
      ∀ c, c ∉ allowedCpus avail k enforce) ∧
    ∀ c, pickNextCpu topology avail k enforce = some c →
      c ∈ allowedCpus avail k enforce ∧
      ∀ p, k.cpu = some p → ∀ d ∈ allowedCpus avail k enforce,
        distance topology (some p) c ≤ distance topology (some p) d := by
  refine ⟨⟨pickNextCpu_none, fun hempty => ?_⟩, fun c hpick => ?_⟩
  · cases hpick : pickNextCpu topology avail k enforce with
    | none => rfl
    | some c => exact absurd (pickNextCpu_closest hpick).1 (hempty c)
  · obtain ⟨hmem, hclosest⟩ := pickNextCpu_closest hpick
    refine ⟨hmem, fun p hp d hd => ?_⟩
    rw [← hp]
    exact distance_le_of_noFarther (hclosest d hd)

/-! ## Victims -/

/-- The CPU whose task the turn replaces, if it comes to that. -/
def Turn.victim (cfg : Config) (env : RoundEnv) (t : Turn) : Option CpuId :=
  if env.onCpu t.next || t.task.seqnum ≠ env.barrier t.next then none
  else
    match pickNextCpu cfg.topology t.sets.availCpus t.task
      cfg.enforceAffinityMask with
    | some _ => none
    | none =>
        pickNextCpu cfg.topology t.sets.availCpusLowPriority t.task
          cfg.enforceAffinityMask

/-- The preemption candidates that the incoming task is allowed on. -/
def Turn.candidates (cfg : Config) (t : Turn) : CpuList :=
  allowedCpus t.sets.availCpusLowPriority t.task cfg.enforceAffinityMask

/-- The task's name says memcached, as the scan reads it last. -/
def memcached (env : RoundEnv) (t : TaskId) : Bool :=
  strContains (env.taskNameAgain t) "memcached"

/-- The CPU runs memcached. -/
def Turn.RunsMemcached (env : RoundEnv) (t : Turn) (c : CpuId) : Prop :=
  ∃ p, (t.state.cpuStates c).current = some p ∧ memcached env p = true

/-- The CPU runs some other task. -/
def Turn.RunsFirewall (env : RoundEnv) (t : Turn) (c : CpuId) : Prop :=
  ∃ p, (t.state.cpuStates c).current = some p ∧ memcached env p = false

/-- The turn does not evict memcached from `c` while it could evict another
task from another candidate. -/
def Turn.SparesMemcached (cfg : Config) (env : RoundEnv) (t : Turn)
    (c : CpuId) : Prop :=
  t.RunsMemcached env c → ∀ d ∈ t.candidates cfg, ¬ t.RunsFirewall env d

section Victim

variable {cfg : Config} {env : RoundEnv} {t : Turn} {c : CpuId}

theorem Turn.victim_closest (h : t.victim cfg env = some c) :
    Closest cfg.topology t.task.cpu (t.candidates cfg) c := by
  unfold Turn.victim at h
  split at h
  · cases h
  split at h
  · cases h
  · exact pickNextCpu_closest h

/-- The task on the victim is replaced. -/
theorem Turn.victim_replaced {n : TaskId} {k : NetTask} {a a' : Assign}
    {s s₁ s' : NetScheduler} (hk : s₁.task n = .live k)
    (h : assignTask cfg env n a s₁ = .ok (a', s'))
    (hv : Turn.victim cfg env ⟨s, a, n, k⟩ = some c) :
    replaceExistingTask c n (env.commit c) env.swRuntime (env.submitTime n) s₁ =
      .ok ((), s') := by
  rw [assignTask, deref_bind hk] at h
  obtain ⟨-, h⟩ := bind_check.mp h
  unfold Turn.victim at hv
  split at hv
  · cases hv
  next hready =>
  rw [if_neg hready] at h
  cases hidle : pickNextCpu cfg.topology a.availCpus k
      cfg.enforceAffinityMask with
  | some d =>
      simp only [hidle] at hv
      cases hv
  | none =>
      simp only [hidle] at hv h
      simp only [hv] at h
      obtain ⟨u, s₂, hrep, h⟩ := Checked.bind_ok.mp h
      cases Checked.pure_ok.mp h
      exact hrep

/-- In a chain of turns, the task on a turn's victim is replaced. -/
theorem Turns.evicts {a a' : Assign} {s s' : NetScheduler} {ts : List Turn}
    (h : Turns cfg env a s ts a' s') (ht : t ∈ ts)
    (hv : t.victim cfg env = some c) :
    ∃ p s₁ s₂, (t.state.cpuStates c).current = some p ∧
      dequeue t.state = .ok (some t.next, s₁) ∧
      replaceExistingTask c t.next (env.commit c) env.swRuntime
        (env.submitTime t.next) s₁ = .ok ((), s₂) := by
  induction h with
  | nil => cases ht
  | cons _ hd hk hassign _ ih =>
      rcases List.mem_cons.mp ht with rfl | hmem
      · have hrep := Turn.victim_replaced hk hassign hv
        obtain ⟨p, kp, hcur, -⟩ := replaceExistingTask_prev hrep
        rw [dequeue_cpuStates hd] at hcur
        exact ⟨p, _, _, hcur, hd, hrep⟩
      · exact ih hmem

theorem Turn.runs_or (hcur : ∃ p, (t.state.cpuStates c).current = some p) :
    t.RunsMemcached env c ∨ t.RunsFirewall env c := by
  obtain ⟨p, hp⟩ := hcur
  cases hname : memcached env p with
  | true => exact Or.inl ⟨p, hp, hname⟩
  | false => exact Or.inr ⟨p, hp, hname⟩

theorem Turn.not_runs_both (hm : t.RunsMemcached env c)
    (hf : t.RunsFirewall env c) : False := by
  obtain ⟨p, hp, hname⟩ := hm
  obtain ⟨q, hq, hname'⟩ := hf
  cases hp.symm.trans hq
  cases hname.symm.trans hname'

end Victim

/-- Every candidate of a round runs a task. -/
theorem Turns.candidate_runs {cfg : Config} {env : RoundEnv} {scan : Scan}
    {s s₁ s₂ : NetScheduler} {ts : List Turn} {a : Assign} {t : Turn}
    {c : CpuId} (hp : Placed s ∅)
    (hscan : scanCpus env cfg.cpus.ids ⟨.emptyCpuList, .emptyCpuList, 0⟩ s =
      .ok (scan, s₁))
    (hturns : Turns cfg env
      ⟨scan.availCpus, scan.availCpusLowPriority, .emptyCpuList⟩ s₁ ts a s₂)
    (ht : t ∈ ts) (hc : c ∈ t.candidates cfg) :
    ∃ p, (t.state.cpuStates c).current = some p := by
  have hoffers := hturns.invariant
    (I := fun s' a => Offers cfg env s s' a.availCpus a.availCpusLowPriority)
    (fun _ _ _ _ _ _ _ _ ho htaken has => has.offers htaken ho)
    (hp.moves (scanCpus_moves hp hscan)) (scan_offers hscan)
  obtain ⟨p, -, hcur⟩ :=
    ((hoffers.2 t ht).candidate c (mem_allowedCpus.mp hc).1).reaped
  exact ⟨p, hcur⟩

/-- A round evicts the task on the closest candidate that the incoming task is
allowed on, whatever its name. It spares memcached as it should exactly if
that task is not memcached, or memcached is all there is to evict. -/
theorem firewall_evicted_first_iff {cfg : Config} {env : RoundEnv}
    {s s₁ s₂ : NetScheduler} {scan : Scan} {ts : List Turn} {a : Assign}
    {t : Turn} {c : CpuId} (h : Reachable cfg s)
    (hscan : scanCpus env cfg.cpus.ids ⟨.emptyCpuList, .emptyCpuList, 0⟩ s =
      .ok (scan, s₁))
    (hturns : Turns cfg env
      ⟨scan.availCpus, scan.availCpusLowPriority, .emptyCpuList⟩ s₁ ts a s₂)
    (ht : t ∈ ts) (hv : t.victim cfg env = some c) :
    (∃ p s₁ s₂, (t.state.cpuStates c).current = some p ∧
      dequeue t.state = .ok (some t.next, s₁) ∧
      replaceExistingTask c t.next (env.commit c) env.swRuntime
        (env.submitTime t.next) s₁ = .ok ((), s₂)) ∧
    Closest cfg.topology t.task.cpu (t.candidates cfg) c ∧
    (t.SparesMemcached cfg env c ↔
      (∀ d ∈ t.candidates cfg, t.RunsMemcached env d) ∨
      ∃ d, Closest cfg.topology t.task.cpu (t.candidates cfg) d ∧
        t.RunsFirewall env d) := by
  have hp := (sound_of_reachable h).placed
  have hevicts := hturns.evicts ht hv
  have hclosest := t.victim_closest hv
  refine ⟨hevicts, hclosest, ?_⟩
  obtain ⟨p, -, -, hcur, -⟩ := hevicts
  constructor
  · intro hspares
    rcases Turn.runs_or ⟨p, hcur⟩ with hm | hf
    · refine Or.inl fun d hd => ?_
      have hruns := Turns.candidate_runs hp hscan hturns ht hd
      exact (Turn.runs_or hruns).resolve_right (hspares hm d hd)
    · exact Or.inr ⟨c, hclosest, hf⟩
  · rintro (hall | ⟨d, hd, hf⟩) hm
    · exact fun d hd => Turn.not_runs_both (hall d hd)
    · cases hclosest.unique hd
      exact (Turn.not_runs_both hm hf).elim

/-- A new task with sequence number 1 that may run on all three CPUs. -/
def newTaskAnywhere (t : TaskId) : Op :=
  .taskNew t false ⟨1, 0, true, some threeCpus.cpus, "app"⟩

/-- A round that reaps whatever ran for 400 microseconds and picks every
memcached for preemption; memcached is the task `m`. -/
def mixedRound (m : TaskId) : RoundEnv :=
  let name := fun t => if t = m then "memcached" else "firewall"
  { calmRound with
    taskName := name
    taskNameAgain := name
    bernoulli := fun _ => true
    scanTime := fun _ => 400000 }

/-- Two tasks run, a third one waits. -/
def oneWaiting : List Op :=
  [newTaskAnywhere 0, newTaskAnywhere 1, .globalSchedule calmRound,
    newTaskAnywhere 2]

/-- The first turn of such a round, when memcached is one of the two: the third
task evicts the one on CPU 1. -/
theorem mixedRound_first {m : TaskId} (hm : m < 2) :
    ∃ s s' scan s₁ t a s₂, Reachable threeCpus s ∧
      globalSchedule threeCpus (mixedRound m) s = .ok ((), s') ∧
      scanCpus (mixedRound m) threeCpus.cpus.ids
        ⟨.emptyCpuList, .emptyCpuList, 0⟩ s = .ok (scan, s₁) ∧
      Turns threeCpus (mixedRound m)
        ⟨scan.availCpus, scan.availCpusLowPriority, .emptyCpuList⟩ s₁ [t] a s₂ ∧
      t.victim threeCpus (mixedRound m) = some 1 ∧
      (t.state.cpuStates 1).current = some 0 ∧
      (t.state.cpuStates 2).current = some 1 ∧
      (t.candidates threeCpus).ids = [1, 2] := by
  have hpass : (performAll threeCpus oneWaiting).passes twoCpusStart
      (fun _ s => (globalSchedule threeCpus (mixedRound m)).passes s fun _ _ =>
      (scanCpus (mixedRound m) threeCpus.cpus.ids
        ⟨.emptyCpuList, .emptyCpuList, 0⟩).passes s fun scan s₁ =>
      dequeue.passes s₁ fun n s₂ => (deref 2).passes s₂ fun k _ =>
      let a : Assign :=
        ⟨scan.availCpus, scan.availCpusLowPriority, .emptyCpuList⟩
      let t : Turn := ⟨s₁, a, 2, k⟩
      (assignTask threeCpus (mixedRound m) 2 a).passes s₂ fun _ _ =>
        (a.availCpus.isEmpty && a.availCpusLowPriority.isEmpty) == false &&
        n == some 2 && t.victim threeCpus (mixedRound m) == some 1 &&
        (s₁.cpuStates 1).current == some 0 &&
        (s₁.cpuStates 2).current == some 1 &&
        (t.candidates threeCpus).ids == [1, 2]) = true := by
    rcases Nat.lt_succ_iff_lt_or_eq.mp hm with h | rfl
    · cases Nat.lt_one_iff.mp h
      decide +kernel
    · decide +kernel
  obtain ⟨_, s, hrun, hpass⟩ := Checked.passes_iff.mp hpass
  obtain ⟨_, s', hround, hpass⟩ := Checked.passes_iff.mp hpass
  obtain ⟨scan, s₁, hscan, hpass⟩ := Checked.passes_iff.mp hpass
  obtain ⟨n, s₂, hd, hpass⟩ := Checked.passes_iff.mp hpass
  obtain ⟨k, s₂', hk, hpass⟩ := Checked.passes_iff.mp hpass
  obtain ⟨a', s₃, hassign, hpass⟩ := Checked.passes_iff.mp hpass
  simp only [Bool.and_eq_true, beq_iff_eq] at hpass
  obtain ⟨⟨⟨⟨⟨hmore, rfl⟩, hv⟩, h1⟩, h2⟩, hcand⟩ := hpass
  obtain ⟨k', hlive, hk⟩ := deref_ok.mp hk
  cases hk
  exact ⟨s, s', scan, s₁, _, a', s₃,
    reach_performAll (.init threeCpus_init) (fun _ _ _ => trivial) hrun, hround,
    hscan,
    .cons hmore hd hlive hassign .nil, hv, h1, h2, hcand⟩

/-- With the firewall on the lower CPU, it is the one to go. -/
theorem firewall_evicted_first_iff_lower :
    ∃ s scan s₁ t a s₂, Reachable threeCpus s ∧
      scanCpus (mixedRound 1) threeCpus.cpus.ids
        ⟨.emptyCpuList, .emptyCpuList, 0⟩ s = .ok (scan, s₁) ∧
      Turns threeCpus (mixedRound 1)
        ⟨scan.availCpus, scan.availCpusLowPriority, .emptyCpuList⟩ s₁ [t] a s₂ ∧
      t.victim threeCpus (mixedRound 1) = some 1 ∧
      t.RunsMemcached (mixedRound 1) 2 ∧
      t.SparesMemcached threeCpus (mixedRound 1) 1 := by
  obtain ⟨s, -, scan, s₁, t, a, s₂, hreach, -, hscan, hturns, hv, h1, h2, -⟩ :=
    mixedRound_first (m := 1) (by decide)
  have hfirst := firewall_evicted_first_iff hreach hscan hturns
    (List.mem_singleton.mpr rfl) hv
  exact ⟨s, scan, s₁, t, a, s₂, hreach, hscan, hturns, hv,
    ⟨1, h2, by decide⟩,
    hfirst.2.2.mpr (Or.inr ⟨1, hfirst.2.1, 0, h1, by decide⟩)⟩

/-- With memcached on the lower CPU, this turn evicts memcached and passes over
the firewall. -/
theorem memcached_evicted_before_firewall :
    ∃ s s' scan s₁ t a s₂ s₃ s₄, Reachable threeCpus s ∧
      globalSchedule threeCpus (mixedRound 0) s = .ok ((), s') ∧
      scanCpus (mixedRound 0) threeCpus.cpus.ids
        ⟨.emptyCpuList, .emptyCpuList, 0⟩ s = .ok (scan, s₁) ∧
      Turns threeCpus (mixedRound 0)
        ⟨scan.availCpus, scan.availCpusLowPriority, .emptyCpuList⟩ s₁ [t] a s₂ ∧
      dequeue t.state = .ok (some t.next, s₃) ∧
      replaceExistingTask 1 t.next ((mixedRound 0).commit 1)
        (mixedRound 0).swRuntime ((mixedRound 0).submitTime t.next) s₃ =
        .ok ((), s₄) ∧
      t.RunsMemcached (mixedRound 0) 1 ∧
      2 ∈ t.candidates threeCpus ∧ t.RunsFirewall (mixedRound 0) 2 := by
  obtain ⟨s, s', scan, s₁, t, a, s₂, hreach, hround, hscan, hturns, hv, h1, h2,
    hcand⟩ := mixedRound_first (m := 0) (by decide)
  obtain ⟨_, s₃, s₄, -, hd, hrep⟩ :=
    hturns.evicts (List.mem_singleton.mpr rfl) hv
  have hmem : 2 ∈ t.candidates threeCpus := by
    rw [CpuList.mem_def, hcand]
    decide
  exact ⟨s, s', scan, s₁, t, a, s₂, s₃, s₄, hreach, hround, hscan, hturns, hd,
    hrep, ⟨0, h1, by decide⟩, hmem, ⟨1, h2, by decide⟩⟩

end GhostDataplane.Agent
