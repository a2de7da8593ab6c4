import GhostDataplane.Proofs.Steps
import Mathlib.Data.Set.Card

/-!
# Every task is in one place, and nobody else is anywhere

The invariant of all runs: the live tasks are placed as their records say,
pointers that were never handed out are nowhere, and `num_tasks_` counts the
live tasks. It holds whatever departs. In the runs whose tasks depart while
blocked, freed pointers are nowhere as well, which is the difference that
`TaskDeparted` makes: it frees the record of any task and leaves the tables
alone, so a pointer dangles exactly when the task was in one of them.
-/

namespace GhostDataplane.Agent

open GhostDataplane.Lib

/-- The tasks that the agent has a record of. -/
def liveTasks (s : NetScheduler) : Set TaskId := {t | ∃ k, s.task t = .live k}

/-- `num_tasks_` is the number of live tasks. -/
def Counted (s : NetScheduler) : Prop :=
  (liveTasks s).Finite ∧ s.numTasks = (liveTasks s).ncard

/-- What every run keeps. -/
structure Sound (s : NetScheduler) : Prop where
  placed : Placed s ∅
  unborn : ∀ t, s.task t = .unborn → Absent s t
  counted : Counted s

/-! ## The steps -/

theorem Counted.moves {s s' : NetScheduler} {H H' : Set TaskId}
    (h : Counted s) (hm : Moves s H s' H') : Counted s' := by
  have hlive : liveTasks s' = liveTasks s := Set.ext hm.live_iff
  rw [Counted, hlive, hm.numTasks]
  exact h

theorem liveTasks_enter {s : NetScheduler} {t : TaskId} {k : NetTask} :
    liveTasks (s.enter t k) = insert t (liveTasks s) := by
  ext u
  by_cases hut : u = t
  · subst hut
    exact ⟨fun _ => Set.mem_insert u _, fun _ => ⟨k, setTask_task_self s u k⟩⟩
  · have hsame : (s.enter t k).task u = s.task u := setTask_task_ne hut
    simp [liveTasks, hsame, hut]

theorem liveTasks_free {s : NetScheduler} {t : TaskId} :
    liveTasks (s.free t) = liveTasks s \ {t} := by
  ext u
  by_cases hut : u = t
  · subst hut
    simp [liveTasks, NetScheduler.free]
  · simp [liveTasks, NetScheduler.free, hut]

theorem Counted.enter {s : NetScheduler} {t : TaskId} {k : NetTask}
    (h : Counted s) (hfresh : s.task t = .unborn) : Counted (s.enter t k) := by
  have ht : t ∉ liveTasks s := by
    rintro ⟨k', hk'⟩
    rw [hfresh] at hk'
    cases hk'
  refine ⟨?_, ?_⟩
  · rw [liveTasks_enter]
    exact h.1.insert t
  · rw [liveTasks_enter, Set.ncard_insert_of_notMem ht h.1]
    simp [NetScheduler.enter, h.2]

theorem Counted.free {s : NetScheduler} {t : TaskId} {k : NetTask}
    (h : Counted s) (hk : s.task t = .live k) : Counted (s.free t) := by
  have ht : t ∈ liveTasks s := ⟨k, hk⟩
  refine ⟨?_, ?_⟩
  · rw [liveTasks_free]
    exact h.1.sdiff
  · rw [liveTasks_free]
    have hcard := Set.ncard_sdiff_singleton_add_one ht h.1
    have hnum := h.2
    simp only [NetScheduler.free]
    omega

theorem At.enter {s : NetScheduler} {t u : TaskId} {k : NetTask} {p : Place}
    (h : At s u p) : At (s.enter t k) u p :=
  ⟨h.queue, h.yielding, h.next, h.current⟩

theorem At.free {s : NetScheduler} {t u : TaskId} {p : Place} (h : At s u p) :
    At (s.free t) u p := ⟨h.queue, h.yielding, h.next, h.current⟩

/-- A new record, queued or not, for a pointer that is nowhere. -/
theorem Placed.enter {s : NetScheduler} {t : TaskId} {k : NetTask}
    (h : Placed s ∅) (ha : Absent s t) (hb : k.runState = .blocked) :
    Placed (s.enter t k) ∅ := by
  refine h.relocate (setTask_task_self s t k) (fun u hu => setTask_task_ne hu)
    (fun _ _ => Iff.rfl) (fun u p _ hat => hat.enter)
    (fun hmem => absurd hmem (Set.notMem_empty t)) (fun _ => ?_) h.exclusive
  refine ⟨.nowhere, ?_, ha.nowhere.enter⟩
  rw [NetTask.place, hb]

theorem Placed.enterQueued {s : NetScheduler} {t : TaskId} {k l : NetTask}
    (h : Placed s ∅) (ha : Absent s t) (hq : k.runState = .queued) :
    Placed ((s.enter t k).push t l) ∅ := by
  refine h.relocate (setTask_task_self s t k) (fun u hu => setTask_task_ne hu)
    (fun _ _ => Iff.rfl) (fun u p hu hat => hat.enter.push hu)
    (fun hmem => absurd hmem (Set.notMem_empty t)) (fun _ => ?_) h.exclusive
  refine ⟨.queue, ?_, ha.nowhere.enter.push_self⟩
  rw [NetTask.place, hq]

theorem Placed.free {s : NetScheduler} {t : TaskId} (h : Placed s ∅) :
    Placed (s.free t) ∅ := by
  refine ⟨fun u k hk hu => ?_, fun u hu => absurd hu (Set.notMem_empty u),
    h.exclusive⟩
  by_cases hut : u = t
  · subst hut
    simp [NetScheduler.free] at hk
  · have hk' : s.task u = .live k := by
      simpa [NetScheduler.free, Function.update_of_ne hut] using hk
    obtain ⟨p, hp, hat⟩ := h.live u k hk' hu
    exact ⟨p, hp, hat.free⟩

/-- A pointer that was not handed out before the step and not by it. -/
theorem Absent.enter {s : NetScheduler} {t u : TaskId} {k : NetTask}
    (h : Absent s u) (hut : u ≠ t) : Absent (s.enter t k) u := by
  have hsame : (s.enter t k).task u = s.task u := setTask_task_ne hut
  exact ⟨by rw [hsame]; exact h.notLive, h.nowhere.enter⟩

theorem Absent.push {s : NetScheduler} {t u : TaskId} {k : NetTask}
    (h : Absent s u) (hut : u ≠ t) : Absent (s.push t k) u :=
  ⟨h.notLive, h.nowhere.push hut⟩

theorem Absent.free {s : NetScheduler} {t u : TaskId} (h : Absent s u) :
    Absent (s.free t) u := by
  refine ⟨fun k hk => ?_, h.nowhere.free⟩
  by_cases hut : u = t
  · subst hut
    simp [NetScheduler.free] at hk
  · exact h.notLive k (by simpa [NetScheduler.free, hut] using hk)

theorem Absent.setInSwitchto {s : NetScheduler} {c : CpuId} {b : Bool}
    {u : TaskId} (h : Absent s u) : Absent (s.setInSwitchto c b) u :=
  (h.move (Move.switchto (H := ∅))).1

/-- What is absent stays absent in every step that does not create it. -/
theorem Absent.step {cfg : Config} {s s' : NetScheduler} {op : Op} {u : TaskId}
    (h : Absent s u) (hs : Step cfg s op s')
    (hu : ∀ k, s'.task u ≠ .live k) : Absent s' u := by
  cases hs with
  | moves _ hm => exact (h.moves hm).1
  | @new t =>
      by_cases hut : u = t
      · subst hut
        exact absurd (setTask_task_self s u _) (hu _)
      · exact h.enter hut
  | @newRunnable t =>
      by_cases hut : u = t
      · subst hut
        exact absurd (setTask_task_self s u _) (hu _)
      · exact (h.enter hut).push hut
  | dead => exact h.free
  | departed _ hd =>
      rcases hd with rfl | ⟨c, rfl⟩
      · exact h.free
      · exact h.setInSwitchto.free

theorem Step.unborn {cfg : Config} {s s' : NetScheduler} {op : Op} {u : TaskId}
    (hs : Step cfg s op s') (hu : s'.task u = .unborn) :
    s.task u = .unborn := by
  have henter : ∀ {t k}, (s.enter t k).task u = .unborn →
      s.task u = .unborn := by
    intro t k hu
    by_cases hut : u = t
    · subst hut
      rw [show (s.enter u k).task u = .live k from setTask_task_self s u k]
        at hu
      cases hu
    · rwa [show (s.enter t k).task u = s.task u from setTask_task_ne hut] at hu
  have hfree : ∀ {t}, (s.free t).task u = .unborn → s.task u = .unborn := by
    intro t hu
    by_cases hut : u = t
    · subst hut
      simp [NetScheduler.free] at hu
    · simpa [NetScheduler.free, hut] using hu
  cases hs with
  | moves _ hm =>
      rcases hm.slot u with h | ⟨k, k', -, hk', -⟩
      · rwa [h] at hu
      · rw [hk'] at hu
        cases hu
  | new | newRunnable => exact henter hu
  | dead => exact hfree hu
  | departed _ hd =>
      rcases hd with rfl | ⟨c, rfl⟩ <;> exact hfree hu

theorem Sound.step {cfg : Config} {s s' : NetScheduler} {op : Op}
    (h : Sound s) (hs : Step cfg s op s') : Sound s' := by
  have hunborn : ∀ t, s'.task t = .unborn → Absent s' t := fun t ht =>
    (h.unborn t (hs.unborn ht)).step hs (by simp [ht])
  cases hs with
  | moves _ hm => exact ⟨h.placed.moves hm, hunborn, h.counted.moves hm⟩
  | new hfresh _ =>
      exact ⟨h.placed.enter (h.unborn _ hfresh) rfl, hunborn,
        h.counted.enter hfresh⟩
  | newRunnable hfresh _ =>
      exact ⟨h.placed.enterQueued (h.unborn _ hfresh) rfl, hunborn,
        h.counted.enter hfresh⟩
  | dead hk _ => exact ⟨h.placed.free, hunborn, h.counted.free hk⟩
  | departed hk hd =>
      rcases hd with rfl | ⟨c, rfl⟩
      · exact ⟨h.placed.free, hunborn, h.counted.free hk⟩
      · have hm := (Move.switchto (s := s) (H := ∅) (c := c) (b := false)).moves
        exact ⟨(h.placed.moves hm).free, hunborn, (h.counted.moves hm).free hk⟩

theorem construct_ok {cfg : Config} {globalCpu : CpuId} {cpuhist : Nat → Int}
    {st : TxnState} {s : NetScheduler}
    (h : construct cfg globalCpu cpuhist st = .ok s) :
    ∃ c ∈ cfg.cpus, s = emptyTables c cpuhist st := by
  unfold construct at h
  split at h
  · next hset =>
      injection h with h
      exact ⟨globalCpu, CpuList.isSet_iff.mp hset, h.symm⟩
  · split at h
    · cases h
    · next c hfront =>
        injection h with h
        exact ⟨c, CpuList.front_mem hfront, h.symm⟩

theorem absent_emptyTables {c : CpuId} {cpuhist : Nat → Int} {st : TxnState}
    (t : TaskId) : Absent (emptyTables c cpuhist st) t :=
  ⟨(fun k hk => by cases hk), rfl, rfl, (fun d => by simp [emptyTables]),
    (fun d => by simp [emptyTables])⟩

theorem sound_emptyTables {c : CpuId} {cpuhist : Nat → Int} {st : TxnState} :
    Sound (emptyTables c cpuhist st) := by
  refine ⟨⟨(fun t k hk _ => by cases hk), fun t ht => absurd ht
    (Set.notMem_empty t), fun d => Or.inl rfl⟩,
    fun t _ => absent_emptyTables t, ?_⟩
  have hnone : liveTasks (emptyTables c cpuhist st) = ∅ := by
    ext t
    simp [liveTasks, emptyTables]
  rw [Counted, hnone]
  simp [emptyTables]

/-! ## All runs -/

theorem sound_of_reachable {cfg : Config} {s : NetScheduler}
    (h : Reachable cfg s) : Sound s := by
  refine Machine.Reach.invariant (I := Sound) ?_ ?_ h
  · rintro s ⟨globalCpu, cpuhist, st, hcon⟩
    obtain ⟨c, -, rfl⟩ := construct_ok hcon
    exact sound_emptyTables
  · intro s op s' _ hsound _ hperf
    exact hsound.step (perform_step hsound.placed hperf)

/-- Nothing in the tables refers to the pointer. -/
structure Unreferenced (s : NetScheduler) (t : TaskId) : Prop where
  runQueue : t ∉ s.runQueue
  lowPriority : t ∉ s.runQueueLowPriority
  yielding : t ∉ s.yieldingTasks
  next : ∀ c, (s.cpuStates c).next ≠ some t
  current : ∀ c, (s.cpuStates c).current ≠ some t

theorem at_nowhere_iff {s : NetScheduler} {t : TaskId} :
    At s t .nowhere ↔ Unreferenced s t := by
  constructor
  · intro h
    exact ⟨h.not_mem_runQueue (by simp), h.not_mem_lowPriority (by simp),
      h.not_mem_yielding (by simp), (fun c hc => by cases (h.next c).mp hc),
      (fun c hc => by cases (h.current c).mp hc)⟩
  · intro h
    refine ⟨?_, ?_, fun c => ?_, fun c => ?_⟩
    · simp [List.count_eq_zero, h.runQueue, h.lowPriority]
    · simp [List.count_eq_zero, h.yielding]
    · simp [h.next c]
    · simp [h.current c]

/-- The task is in the place that its run state names and nowhere else. -/
structure InPlace (s : NetScheduler) (t : TaskId) (k : NetTask) : Prop where
  queued : k.runState = .queued ↔
    (s.runQueue ++ s.runQueueLowPriority).count t = 1
  notQueued : k.runState ≠ .queued →
    (s.runQueue ++ s.runQueueLowPriority).count t = 0
  yielding : k.runState = .yielding ↔ s.yieldingTasks.count t = 1
  notYielding : k.runState ≠ .yielding → s.yieldingTasks.count t = 0
  pending : k.runState = .pending ↔
    ∃ c, k.cpu = some c ∧ ∀ d, (s.cpuStates d).next = some t ↔ d = c
  notPending : k.runState ≠ .pending → ∀ d, (s.cpuStates d).next ≠ some t
  onCpu : k.runState = .onCpu ↔
    ∃ c, k.cpu = some c ∧ ∀ d, (s.cpuStates d).current = some t ↔ d = c
  notOnCpu : k.runState ≠ .onCpu → ∀ d, (s.cpuStates d).current ≠ some t
  blocked : k.runState = .blocked ↔ Unreferenced s t

/-- The place that a record names says what its run state is. -/
theorem place_iff {k : NetTask} {p : Place} (hp : k.place = some p) :
    (k.runState = .queued ↔ p = .queue) ∧
    (k.runState = .yielding ↔ p = .yielding) ∧
    (k.runState = .blocked ↔ p = .nowhere) ∧
    (k.runState = .pending ↔ ∃ c, k.cpu = some c ∧ p = .next c) ∧
    (k.runState = .onCpu ↔ ∃ c, k.cpu = some c ∧ p = .current c) := by
  unfold NetTask.place at hp
  cases hrs : k.runState with
  | blocked | queued | yielding =>
      simp only [hrs, Option.some.injEq] at hp
      subst hp
      simp
  | pending | onCpu =>
      simp only [hrs, Option.map_eq_some_iff] at hp
      obtain ⟨c, hc, rfl⟩ := hp
      simp [hc]

theorem Placed.inPlace {s : NetScheduler} {t : TaskId} {k : NetTask}
    (h : Placed s ∅) (hk : s.task t = .live k) : InPlace s t k := by
  obtain ⟨p, hp, hat⟩ := h.live t k hk (Set.notMem_empty t)
  obtain ⟨hqueued, hyielding, hblocked, hpending, honCpu⟩ := place_iff hp
  refine ⟨?_, fun hne => ?_, ?_, fun hne => ?_, ?_, fun hne d hd => ?_, ?_,
    fun hne d hd => ?_, ?_⟩
  · rw [hqueued, hat.queue]
    simp
  · rw [hat.queue, if_neg (fun he => hne (hqueued.mpr he))]
  · rw [hyielding, hat.yielding]
    simp
  · rw [hat.yielding, if_neg (fun he => hne (hyielding.mpr he))]
  · rw [hpending]
    constructor
    · rintro ⟨c, hc, rfl⟩
      exact ⟨c, hc, fun d => by rw [hat.next d]; simp [eq_comm]⟩
    · rintro ⟨c, hc, hnext⟩
      exact ⟨c, hc, (hat.next c).mp ((hnext c).mpr rfl)⟩
  · have hpd := (hat.next d).mp hd
    obtain ⟨-, -, hcpu⟩ := h.at_next hk hd
    exact hne (hpending.mpr ⟨d, hcpu, hpd⟩)
  · rw [honCpu]
    constructor
    · rintro ⟨c, hc, rfl⟩
      exact ⟨c, hc, fun d => by rw [hat.current d]; simp [eq_comm]⟩
    · rintro ⟨c, hc, hcur⟩
      exact ⟨c, hc, (hat.current c).mp ((hcur c).mpr rfl)⟩
  · have hpd := (hat.current d).mp hd
    obtain ⟨-, -, hcpu⟩ := h.at_current hk hd
    exact hne (honCpu.mpr ⟨d, hcpu, hpd⟩)
  · rw [hblocked, ← at_nowhere_iff]
    exact ⟨fun he => he ▸ hat, fun hn => hat.unique hn⟩

/-- In every run whose tasks depart while blocked, every live task is where
its run state says and nowhere else, no CPU has both a current and a next
task, and `num_tasks_` is the number of live tasks. -/
theorem every_live_task_in_place {cfg : Config} {s : NetScheduler}
    (h : CleanReachable cfg s) :
    (∀ t k, s.task t = .live k → InPlace s t k) ∧
    (∀ c, ¬ ((s.cpuStates c).current ≠ none ∧ (s.cpuStates c).next ≠ none)) ∧
    (liveTasks s).Finite ∧ s.numTasks = (liveTasks s).ncard := by
  have hsound := sound_of_reachable h.reachable
  refine ⟨fun t k hk => hsound.placed.inPlace hk, fun c hc => ?_,
    hsound.counted⟩
  rcases hsound.placed.exclusive c with hn | hn
  · exact hc.1 hn
  · exact hc.2 hn

/-- A run of two tasks, one blocked and one waiting for its transaction. -/
theorem every_live_task_in_place_two :
    ∃ s k, CleanReachable twoCpus s ∧ s.task 0 = .live k ∧
      (s.cpuStates 1).next = some 0 ∧ InPlace s 0 k ∧ s.numTasks = 2 ∧
      s.numTasks = (liveTasks s).ncard := by
  have hrun : ∃ s, performAll twoCpus
      [newTask 0 true true "EngineThread/0", newTask 1 false false "app",
        .globalSchedule calmRound] twoCpusStart = .ok ((), s) ∧
      (s.cpuStates 1).next = some 0 ∧ (∃ k, s.task 0 = .live k) ∧
      s.numTasks = 2 := ⟨_, rfl, rfl, ⟨_, rfl⟩, rfl⟩
  obtain ⟨s, hrun, hnext, ⟨k, hk⟩, hnum⟩ := hrun
  have hreach : CleanReachable twoCpus s :=
    reach_performAll (.init twoCpusStart_init)
      (by simp [newTask, departsBlocked]) hrun
  obtain ⟨hplace, -, -, hcount⟩ := every_live_task_in_place hreach
  exact ⟨s, k, hreach, hk, hnext, hplace 0 k hk, hnum, hcount⟩

/-! ## What a departure leaves behind -/

/-- Everything the tables refer to is live. -/
def Intact (s : NetScheduler) : Prop :=
  ∀ t, (∀ k, s.task t ≠ .live k) → Absent s t

theorem Intact.moves {s s' : NetScheduler} {H H' : Set TaskId} (h : Intact s)
    (hm : Moves s H s' H') : Intact s' := by
  intro t ht
  have hnot : ∀ k, s.task t ≠ .live k := fun k hk =>
    let ⟨k', hk'⟩ := (hm.live_iff t).mpr ⟨k, hk⟩
    ht k' hk'
  exact ((h t hnot).moves hm).1

/-- Only the two callbacks free a task, and they free it as it stands. -/
theorem Step.freed {cfg : Config} {s s' : NetScheduler} {op : Op} {u : TaskId}
    {k : NetTask} (hs : Step cfg s op s') (hk : s.task u = .live k)
    (hu : ∀ k, s'.task u ≠ .live k) :
    (k.runState = .blocked ∧ s' = s.free u) ∨
      ∃ msg, op = .taskDeparted u msg ∧ Departs s u s' := by
  have hother : ∀ {t}, (∀ k, (s.free t).task u ≠ .live k) → u = t := by
    intro t hfree
    by_contra hut
    exact hfree k (by simpa [NetScheduler.free, hut] using hk)
  cases hs with
  | moves _ hm =>
      obtain ⟨k', hk'⟩ := (hm.live_iff u).mpr ⟨k, hk⟩
      exact absurd hk' (hu k')
  | new hfresh _ | newRunnable hfresh _ =>
      refine absurd ((setTask_task_ne ?_).trans hk) (hu k)
      rintro rfl
      rw [hfresh] at hk
      cases hk
  | dead hk' hb =>
      cases hother hu
      cases hk.symm.trans hk'
      exact Or.inl ⟨hb, rfl⟩
  | @departed t msg _ _ _ hd =>
      have hut : u = t := by
        rcases hd with rfl | ⟨c, rfl⟩ <;> exact hother hu
      subst hut
      exact Or.inr ⟨msg, rfl, hd⟩

/-- The tables say about a freed pointer what they said about the task. -/
theorem Departs.at_iff {s s' : NetScheduler} {t : TaskId} {p : Place}
    (hs : Departs s t s') : At s' t p ↔ At s t p := by
  rcases hs with rfl | ⟨c, rfl⟩
  · exact ⟨fun h => ⟨h.queue, h.yielding, h.next, h.current⟩, At.free⟩
  · have hcpu : ∀ d, (s.cpuStates d).current =
        ((s.setInSwitchto c false).cpuStates d).current ∧
        (s.cpuStates d).next =
          ((s.setInSwitchto c false).cpuStates d).next := by
      intro d
      by_cases hd : d = c
      · subst hd
        rw [NetScheduler.setInSwitchto, setCpu_self]
        exact ⟨rfl, rfl⟩
      · rw [NetScheduler.setInSwitchto, setCpu_ne hd]
        exact ⟨rfl, rfl⟩
    constructor
    · intro h
      exact At.congr rfl rfl rfl hcpu
        (s := (s.setInSwitchto c false))
          ⟨h.queue, h.yielding, h.next, h.current⟩
    · intro h
      have h' : At (s.setInSwitchto c false) t p := h.setCpu Iff.rfl Iff.rfl
      exact h'.free

theorem Departs.freed {s s' : NetScheduler} {t : TaskId}
    (hs : Departs s t s') : s'.task t = .freed := by
  rcases hs with rfl | ⟨c, rfl⟩ <;> simp [NetScheduler.free]

/-- A step that frees a task frees it out of nowhere, if tasks depart only
while blocked. -/
theorem Intact.step {cfg : Config} {s s' : NetScheduler} {op : Op}
    (h : Intact s) (hp : Placed s ∅) (hs : Step cfg s op s')
    (hok : departsBlocked s op) : Intact s' := by
  intro u hu
  by_cases hlive : ∃ k, s.task u = .live k
  · obtain ⟨k, hk⟩ := hlive
    have hat : k.runState = .blocked → At s u .nowhere :=
      fun hb => hp.at_blocked hk (Set.notMem_empty u) hb
    rcases hs.freed hk hu with ⟨hb, hfree⟩ | ⟨msg, rfl, hfree⟩
    · exact ⟨hu, (Departs.at_iff (Or.inl hfree)).mpr (hat hb)⟩
    · exact ⟨hu, hfree.at_iff.mpr (hat (hok k hk))⟩
  · exact (h u fun k hk => hlive ⟨k, hk⟩).step hs hu

theorem intact_of_cleanReachable {cfg : Config} {s : NetScheduler}
    (h : CleanReachable cfg s) : Intact s := by
  refine Machine.Reach.invariant (I := Intact) ?_ ?_ h
  · rintro s ⟨globalCpu, cpuhist, st, hcon⟩ t -
    obtain ⟨c, -, rfl⟩ := construct_ok hcon
    exact absent_emptyTables t
  · intro s op s' hr hintact hok hperf
    have hp := (sound_of_reachable (CleanReachable.reachable hr)).placed
    exact hintact.step hp (perform_step hp hperf) hok

/-- A departure frees the task and leaves no reference to it exactly when the
task was blocked, and in the runs whose tasks depart while blocked no freed
task is ever referred to. -/
theorem departure_unreferenced_iff {cfg : Config} :
    (∀ s t k msg s', Reachable cfg s → s.task t = .live k →
      perform cfg (.taskDeparted t msg) s = .ok ((), s') →
      s'.task t = .freed ∧ (Unreferenced s' t ↔ k.runState = .blocked)) ∧
    ∀ s, CleanReachable cfg s → ∀ t, s.task t = .freed → Unreferenced s t := by
  refine ⟨fun s t k msg s' hr hk hperf => ?_, fun s hr t ht => ?_⟩
  · have hp := (sound_of_reachable hr).placed
    obtain ⟨-, -, hd⟩ := taskDeparted_ok hperf
    refine ⟨hd.freed, ?_⟩
    rw [← at_nowhere_iff, hd.at_iff, at_nowhere_iff]
    exact (hp.inPlace hk).blocked.symm
  · exact at_nowhere_iff.mp
      (intact_of_cleanReachable hr t (by simp [ht])).nowhere

/-- A blocked task departs. -/
theorem departure_unreferenced_iff_blocked :
    ∃ s s' k, Reachable twoCpus s ∧ s.task 0 = .live k ∧
      perform twoCpus (.taskDeparted 0 ⟨2, 0, false, 0, none⟩) s =
        .ok ((), s') ∧
      k.runState = .blocked ∧ s'.task 0 = .freed ∧ Unreferenced s' 0 := by
  have hrun : ∃ s s' k, performAll twoCpus [newTask 0 true false "app"]
      twoCpusStart = .ok ((), s) ∧ s.task 0 = .live k ∧
      perform twoCpus (.taskDeparted 0 ⟨2, 0, false, 0, none⟩) s =
        .ok ((), s') ∧
      k.runState = .blocked := ⟨_, _, _, rfl, rfl, rfl, rfl⟩
  obtain ⟨s, s', k, hrun, hk, hperf, hb⟩ := hrun
  have hreach : Reachable twoCpus s :=
    reach_performAll (.init twoCpusStart_init) (fun _ _ _ => trivial) hrun
  obtain ⟨hfreed, hiff⟩ :=
    departure_unreferenced_iff.1 s 0 k _ s' hreach hk hperf
  exact ⟨s, s', k, hreach, hk, hperf, hb, hfreed, hiff.mpr hb⟩

/-- A task departs while it is queued: its pointer stays in the queue, and the
next round stops on it. -/
theorem departure_of_queued_dangles :
    ∃ s s' k, Reachable twoCpus s ∧ s.task 0 = .live k ∧
      k.runState = .queued ∧
      perform twoCpus (.taskDeparted 0 ⟨2, 0, false, 0, none⟩) s =
        .ok ((), s') ∧
      s'.task 0 = .freed ∧ s'.runQueue = [0] ∧ ¬ Unreferenced s' 0 ∧
      globalSchedule twoCpus calmRound s' = .error (.useAfterFree 0) := by
  have hrun : ∃ s s' k, performAll twoCpus
      [newTask 0 true true "EngineThread/0"] twoCpusStart = .ok ((), s) ∧
      s.task 0 = .live k ∧ k.runState = .queued ∧
      perform twoCpus (.taskDeparted 0 ⟨2, 0, false, 0, none⟩) s =
        .ok ((), s') ∧
      s'.task 0 = .freed ∧ s'.runQueue = [0] ∧
      globalSchedule twoCpus calmRound s' = .error (.useAfterFree 0) :=
    ⟨_, _, _, rfl, rfl, rfl, rfl, rfl, rfl, rfl⟩
  obtain ⟨s, s', k, hrun, hk, hq, hperf, hfreed, hqueue, hstop⟩ := hrun
  have hreach : Reachable twoCpus s :=
    reach_performAll (.init twoCpusStart_init) (fun _ _ _ => trivial) hrun
  refine ⟨s, s', k, hreach, hk, hq, hperf, hfreed, hqueue, fun hun => ?_, hstop⟩
  exact hun.runQueue (by simp [hqueue])

end GhostDataplane.Agent
