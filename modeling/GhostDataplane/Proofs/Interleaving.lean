import GhostDataplane.Agent.Threads
import GhostDataplane.Proofs.NoAbort
import GhostDataplane.Proofs.RoundSound
import GhostDataplane.Proofs.Turns

/-!
# Operations cut into steps

`Threads` runs the operations of the scheduler in pieces. This module puts
the pieces together again. `Pc.finish` is the rest of the operation that a
thread is in the middle of, as one computation without interruption, and a
step of the thread does not change what that computation leads to. At the
first piece it is the whole operation, at the last it is nothing, so a thread
that nobody disturbs takes the scheduler from one reachable state to the
next.

The assignment loop is the one place where this is not read off the
definitions. `GlobalSchedule` counts the turns of its loop when the loop
begins, and a thread does not count; `assignLoop_fuel` says that any number
of turns will do that exceeds what the loop can still take.
-/

namespace GhostDataplane.Agent

open GhostDataplane.Lib

/-! ## One step of a thread -/

/-- All that `schedStep` can do, dispatching a message aside. -/
inductive SchedStep (cfg : Config) (c : CpuId) (s : NetScheduler) :
    Pc → Pc → NetScheduler → Prop where
  | outside {pc pc' : Pc} (hpc : pc.inside = false)
      (hpc' : pc'.inside = false) :
      SchedStep cfg c s pc pc' s
  | entered (hglobal : c = s.globalCpuid) : SchedStep cfg c s .head .boosted s
  | picking : SchedStep cfg c s .boosted .pickNext s
  | draining : SchedStep cfg c s .boosted .peek s
  | searching {env : MigrateEnv} : SchedStep cfg c s .pickNext
      (.search s.globalCpuid env cfg.cpus.ids) s
  | nowhere {g : CpuId} {env : MigrateEnv} :
      SchedStep cfg c s (.search g env []) .head s
  | found {g d target : CpuId} {env : MigrateEnv} {cpus : List CpuId}
      {s' : NetScheduler}
      (hsearch : searchCpu cfg env g d s = .ok (some target, s')) :
      SchedStep cfg c s (.search g env (d :: cpus)) (.settle env target) s'
  | passed {g d : CpuId} {env : MigrateEnv} {cpus : List CpuId}
      {s' : NetScheduler} (hsearch : searchCpu cfg env g d s = .ok (none, s')) :
      SchedStep cfg c s (.search g env (d :: cpus)) (.search g env cpus) s'
  | settled {env : MigrateEnv} {target : CpuId} {s' : NetScheduler}
      (hset : settleTarget env target s = .ok ((), s')) :
      SchedStep cfg c s (.settle env target) (.vacate env target) s'
  | vacated {env : MigrateEnv} {target : CpuId} {s' : NetScheduler}
      (hvac : vacateTarget env target (s.cpuStates target).current s =
        .ok ((), s')) :
      SchedStep cfg c s (.vacate env target) (.setGlobal target) s'
  | handedOver {target : CpuId} : SchedStep cfg c s (.setGlobal target)
      (.ping target) (s.handOver target)
  | scanned {env : RoundEnv} {d : CpuId} {cpus : List CpuId} {a a' : Scan}
      {s' : NetScheduler} (hscan : scanCpu env d a s = .ok (a', s')) :
      SchedStep cfg c s (.scan env (d :: cpus) a) (.scan env cpus a') s'
  | collected {env : RoundEnv} {a : Scan} :
      SchedStep cfg c s (.scan env [] a)
        (.assign env ⟨a.availCpus, a.availCpusLowPriority, .emptyCpuList⟩
          a.unavail) s
  | assigned {env : RoundEnv} {a a' : Assign} {unavail : Nat} {n : TaskId}
      {s₁ s' : NetScheduler}
      (hmore : (a.availCpus.isEmpty && a.availCpusLowPriority.isEmpty) = false)
      (hd : dequeue s = .ok (some n, s₁))
      (hassign : assignTask cfg env n a s₁ = .ok (a', s')) :
      SchedStep cfg c s (.assign env a unavail) (.assign env a' unavail) s'
  | exhausted {env : RoundEnv} {a : Assign} {unavail : Nat}
      (hend : (a.availCpus.isEmpty && a.availCpusLowPriority.isEmpty) = true ∨
        dequeue s = .ok (none, s)) :
      SchedStep cfg c s (.assign env a unavail) (.submit a unavail) s
  | submitted {a : Assign} {unavail : Nat} {s' : NetScheduler}
      (hsub : (if a.assignedCpus.isEmpty then pure ()
        else Checked.modify fun s => s.note (.submitted a.assignedCpus) :
          Sched Unit) s = .ok ((), s')) :
      SchedStep cfg c s (.submit a unavail)
        (.requeue s'.yieldingTasks unavail) s'
  | requeued {t : TaskId} {tasks : List TaskId} {unavail : Nat} {k : NetTask}
      (hk : s.task t = .live k) (hy : k.runState = .yielding) :
      SchedStep cfg c s (.requeue (t :: tasks) unavail)
        (.requeue tasks unavail)
        ((s.setTask t { k with runState := .queued }).push t k)
  | cleared {unavail : Nat} : SchedStep cfg c s (.requeue [] unavail)
      (.bump unavail) { s with yieldingTasks := [] }
  | bumped {unavail : Nat} :
      SchedStep cfg c s (.bump unavail) .head (bumpCpuhist unavail s)

/-- The counters at which a thread works on the channel. -/
def Pc.onChannel : Pc → Bool
  | .peek | .dispatch _ | .consume => true
  | _ => false

theorem schedStep_cases {cfg : Config} {r : Reads} {c : CpuId} {pc pc' : Pc}
    {s s' : NetScheduler} (hpc : pc.onChannel = false)
    (h : schedStep cfg r c pc s = .ok (pc', s')) :
    SchedStep cfg c s pc pc' s' := by
  cases pc with
  | peek | dispatch | consume => cases hpc
  | localYield | ping | load | store | finished =>
      cases Checked.pure_ok.mp h
      exact .outside rfl rfl
  | head =>
      simp only [schedStep, Checked.bind_get] at h
      cases Checked.pure_ok.mp h
      split
      · exact .outside rfl rfl
      · split
        · exact .outside rfl rfl
        · next hc => exact .entered (not_not.mp hc)
  | boosted =>
      cases Checked.pure_ok.mp h
      split
      · exact .picking
      · exact .draining
  | pickNext =>
      simp only [schedStep, Checked.bind_get] at h
      cases Checked.pure_ok.mp h
      exact .searching
  | search g env cpus =>
      cases cpus with
      | nil =>
          cases Checked.pure_ok.mp h
          exact .nowhere
      | cons d cpus =>
          obtain ⟨target, s₁, hsearch, h⟩ := Checked.bind_ok.mp h
          cases target with
          | some target =>
              cases Checked.pure_ok.mp h
              exact .found hsearch
          | none =>
              cases Checked.pure_ok.mp h
              exact .passed hsearch
  | settle env target =>
      obtain ⟨_, s₁, hset, h⟩ := Checked.bind_ok.mp h
      cases Checked.pure_ok.mp h
      exact .settled hset
  | vacate env target =>
      simp only [schedStep, Checked.bind_get] at h
      obtain ⟨_, s₁, hvac, h⟩ := Checked.bind_ok.mp h
      cases Checked.pure_ok.mp h
      exact .vacated hvac
  | setGlobal target =>
      simp only [schedStep, Checked.bind_modify] at h
      cases Checked.pure_ok.mp h
      exact .handedOver
  | scan env cpus a =>
      cases cpus with
      | nil =>
          cases Checked.pure_ok.mp h
          exact .collected
      | cons d cpus =>
          obtain ⟨a', s₁, hscan, h⟩ := Checked.bind_ok.mp h
          cases Checked.pure_ok.mp h
          exact .scanned hscan
  | assign env a unavail =>
      simp only [schedStep] at h
      split at h
      · next hend =>
          cases Checked.pure_ok.mp h
          exact .exhausted (Or.inl hend)
      · next hmore =>
          obtain ⟨next, s₁, hd, h⟩ := Checked.bind_ok.mp h
          cases next with
          | none =>
              cases Checked.pure_ok.mp h
              obtain ⟨-, -, rfl⟩ := dequeue_none hd
              exact .exhausted (Or.inr hd)
          | some n =>
              obtain ⟨a', s₂, hassign, h⟩ := Checked.bind_ok.mp h
              cases Checked.pure_ok.mp h
              exact .assigned (by simpa using hmore) hd hassign
  | submit a unavail =>
      obtain ⟨_, s₁, hsub, h⟩ := Checked.bind_ok.mp h
      simp only [Checked.bind_get] at h
      cases Checked.pure_ok.mp h
      exact .submitted hsub
  | requeue tasks unavail =>
      cases tasks with
      | nil =>
          simp only [schedStep, Checked.bind_modify] at h
          cases Checked.pure_ok.mp h
          exact .cleared
      | cons t tasks =>
          obtain ⟨k, hk, h⟩ := bind_deref.mp h
          obtain ⟨hy, h⟩ := bind_check.mp h
          rw [Checked.bind_eq (enqueue_eq hk)] at h
          cases Checked.pure_ok.mp h
          exact .requeued hk (by simpa using hy)
  | bump unavail =>
      simp only [schedStep, Checked.bind_modify] at h
      cases Checked.pure_ok.mp h
      exact .bumped

/-! ## What is left of an operation -/

def finishRequeue (tasks : List TaskId) (unavail : Nat) : Sched Unit := do
  requeue tasks
  Checked.modify fun s => { s with yieldingTasks := [] }
  Checked.modify (bumpCpuhist unavail)

def finishSubmit (a : Assign) (unavail : Nat) : Sched Unit := do
  (if a.assignedCpus.isEmpty then pure ()
  else Checked.modify fun s => s.note (.submitted a.assignedCpus))
  let s ← Checked.get
  finishRequeue s.yieldingTasks unavail

def finishAssign (cfg : Config) (env : RoundEnv) (a : Assign) (unavail : Nat) :
    Sched Unit := do
  let s ← Checked.get
  let a ← assignLoop cfg env (turnsLeft s a + 1) a
  finishSubmit a unavail

/-- The rest of the operation a thread is in the middle of, without
interruption. -/
def Pc.finish (cfg : Config) : Pc → Sched Unit
  | .search globalCpuId env cpus => do
      let target ← findTarget cfg env globalCpuId cpus
      match target with
      | none => pure ()
      | some target => migrateTo env target
  | .settle env target => migrateTo env target
  | .vacate env target => do
      let s ← Checked.get
      vacateTarget env target (s.cpuStates target).current
      Checked.modify fun s => s.handOver target
  | .setGlobal target => Checked.modify fun s => s.handOver target
  | .dispatch msg => perform cfg msg
  | .scan env cpus a => do
      let a ← scanCpus env cpus a
      finishAssign cfg env
        ⟨a.availCpus, a.availCpusLowPriority, .emptyCpuList⟩ a.unavail
  | .assign env a unavail => finishAssign cfg env a unavail
  | .submit a unavail => finishSubmit a unavail
  | .requeue tasks unavail => finishRequeue tasks unavail
  | .bump unavail => Checked.modify (bumpCpuhist unavail)
  | _ => pure ()

theorem Pc.finish_outside {cfg : Config} {pc : Pc} (h : pc.inside = false) :
    pc.finish cfg = pure () := by
  cases pc with
  | head | localYield | ping | load | store | finished => rfl
  | _ => cases h

/-! ### The search -/

/-- A turn of the search touches at most the home CPU or the CPU it looks
at, and what it does is a sync or a poll. -/
theorem SearchTurn.changes {cfg : Config} {env : MigrateEnv} {g d : CpuId}
    {s s' : NetScheduler} {o : Option CpuId}
    (h : SearchTurn cfg env g d s o s') :
    s' = s ∨ ∃ c, Settled c s s' ∨ Polled c s s' := by
  cases h with
  | home _ _ hset => exact Or.inr ⟨_, Or.inl hset⟩
  | here _ _ _ _ hpoll _ => exact Or.inr ⟨_, Or.inr hpoll⟩
  | passed => exact Or.inl rfl

/-! ### The assignment loop -/

section Assign

variable {cfg : Config} {env : RoundEnv} {a : Assign} {s : NetScheduler}

theorem AssignStep.globalCpuid {n : TaskId} {k : NetTask} {a' : Assign}
    {s' : NetScheduler} (h : AssignStep cfg env n k s a s' a') :
    s'.globalCpuid = s.globalCpuid := by
  cases h with
  | stale | batched | unplaced => rfl
  | replaced _ _ _ hrep => exact hrep.confined.globalCpuid

theorem finishAssign_step {a' : Assign} {unavail : Nat} {n : TaskId}
    {s₁ s' : NetScheduler} (hp : Placed s ∅)
    (hmore : (a.availCpus.isEmpty && a.availCpusLowPriority.isEmpty) = false)
    (hd : dequeue s = .ok (some n, s₁))
    (hassign : assignTask cfg env n a s₁ = .ok (a', s')) :
    Placed s' ∅ ∧
      finishAssign cfg env a unavail s =
        finishAssign cfg env a' unavail s' := by
  obtain ⟨k, ht, has⟩ := assignTask_taken hp hd hassign
  have hp' := hp.moves (has.moves ht)
  have hless := turn_variant hd hassign
  have hloop : assignLoop cfg env (turnsLeft s a + 1) a s =
      assignLoop cfg env (turnsLeft s' a' + 1) a' s' := by
    rw [assignLoop, if_neg (by rw [hmore]; simp), Checked.bind_eq hd]
    simp only []
    rw [Checked.bind_eq hassign]
    exact assignLoop_fuel (by omega) (Nat.lt_succ_self _)
  refine ⟨hp', ?_⟩
  unfold finishAssign
  rw [Checked.get_bind, Checked.get_bind]
  exact Checked.bind_left hloop

theorem finishAssign_end {unavail : Nat}
    (hend : (a.availCpus.isEmpty && a.availCpusLowPriority.isEmpty) = true ∨
      dequeue s = .ok (none, s)) :
    finishAssign cfg env a unavail s = finishSubmit a unavail s := by
  have hloop : assignLoop cfg env (turnsLeft s a + 1) a s = .ok (a, s) := by
    unfold assignLoop
    split
    · rfl
    · next hmore =>
        rw [Checked.bind_eq (hend.resolve_left hmore)]
        rfl
  unfold finishAssign
  rw [Checked.get_bind, Checked.bind_eq hloop]

theorem finishRequeue_step {t : TaskId} {tasks : List TaskId} {unavail : Nat}
    {k : NetTask} (hk : s.task t = .live k) (hy : k.runState = .yielding) :
    finishRequeue (t :: tasks) unavail s = finishRequeue tasks unavail
      ((s.setTask t { k with runState := .queued }).push t k) := by
  refine Checked.bind_left ?_
  rw [requeue, deref_bind hk, check_bind (by simp [hy]),
    Checked.bind_eq (enqueue_eq hk)]

end Assign

/-! ## The holder is on the way to a reachable state -/

/-- What a counter in the middle of an operation assumes of the tables. -/
def Pc.Fits (s : NetScheduler) : Pc → Prop
  | .search g _ _ => g = s.globalCpuid ∧ Placed s ∅
  | .settle _ _ | .vacate _ _ | .scan _ _ _ | .assign _ _ _ => Placed s ∅
  | _ => True

/-- The operation that the holder is in the middle of will lead to a state
that the scheduler reaches by whole operations. -/
structure Holds (cfg : Config) (pc : Pc) (s : NetScheduler) : Prop where
  serial : ∀ s', pc.finish cfg s = .ok ((), s') → Reachable cfg s'
  fits : pc.Fits s

section Holds

variable {cfg : Config} {c : CpuId} {pc pc' : Pc} {s s' : NetScheduler}

theorem Holds.reachable (h : Holds cfg pc s) (hpc : pc.finish cfg = pure ()) :
    Reachable cfg s := by
  refine h.serial s ?_
  rw [hpc]
  rfl

theorem holds_outside (h : Reachable cfg s) (hpc : pc.inside = false) :
    Holds cfg pc s := by
  refine ⟨fun s' hs' => ?_, ?_⟩
  · rw [Pc.finish_outside hpc] at hs'
    cases Checked.pure_ok.mp hs'
    exact h
  · cases pc with
    | head | localYield | ping | load | store | finished => trivial
    | _ => cases hpc

/-- The rest of the operation does not change when the holder takes the next
step of it. -/
theorem Holds.of_eq (h : Holds cfg pc s)
    (hrest : pc.finish cfg s = pc'.finish cfg s') (hfits : pc'.Fits s') :
    Holds cfg pc' s' :=
  ⟨fun s₁ hs₁ => h.serial s₁ (hrest.trans hs₁), hfits⟩

theorem placed_of_reachable (h : Reachable cfg s) : Placed s ∅ :=
  (sound_of_reachable h).placed

theorem searchCpu_frame {env : MigrateEnv} {g d : CpuId} {o : Option CpuId}
    (hp : Placed s ∅) (h : searchCpu cfg env g d s = .ok (o, s')) :
    s'.globalCpuid = s.globalCpuid ∧ Placed s' ∅ := by
  rcases (searchCpu_cases h).changes with rfl | ⟨e, hset | hpoll⟩
  · exact ⟨rfl, hp⟩
  · exact ⟨hset.confined.globalCpuid, hp.moves (hset.moves hp)⟩
  · exact ⟨hpoll.confined.globalCpuid, hpoll.placed hp⟩

theorem Holds.step (h : Holds cfg pc s) (hstep : SchedStep cfg c s pc pc' s') :
    Holds cfg pc' s' := by
  cases hstep with
  | outside hpc hpc' =>
      exact holds_outside (h.reachable (Pc.finish_outside hpc)) hpc'
  | entered | picking | draining => exact ⟨h.serial, trivial⟩
  | @searching env =>
      have hr := h.reachable rfl
      exact ⟨fun s' hs' => .step (a := .pickNextGlobalCpu env) hr trivial hs',
        rfl, placed_of_reachable hr⟩
  | nowhere => exact ⟨h.serial, trivial⟩
  | @found g d target env cpus s' hsearch =>
      obtain ⟨rfl, hp⟩ := h.fits
      have hfind : findTarget cfg env s.globalCpuid (d :: cpus) s =
          .ok (some target, s') := Checked.bind_eq hsearch
      exact h.of_eq (Checked.bind_eq hfind) (searchCpu_frame hp hsearch).2
  | passed hsearch =>
      obtain ⟨rfl, hp⟩ := h.fits
      obtain ⟨hg, hp'⟩ := searchCpu_frame hp hsearch
      exact h.of_eq (Checked.bind_left (Checked.bind_eq hsearch))
        ⟨hg.symm, hp'⟩
  | settled hset =>
      have hp : Placed s ∅ := h.fits
      exact h.of_eq (Checked.bind_eq hset)
        (hp.moves ((settleTarget_settled hset).moves hp))
  | vacated hvac => exact h.of_eq (Checked.bind_eq hvac) trivial
  | handedOver => exact holds_outside (h.serial _ rfl) rfl
  | scanned hscan =>
      have hp : Placed s ∅ := h.fits
      refine h.of_eq (Checked.bind_left (Checked.bind_eq hscan)) ?_
      exact hp.moves ((scanCpu_cases hscan).moves hp)
  | collected => exact ⟨h.serial, h.fits⟩
  | assigned hmore hd hassign =>
      obtain ⟨hp', hrest⟩ := finishAssign_step h.fits hmore hd hassign
      exact h.of_eq hrest hp'
  | exhausted hend => exact h.of_eq (finishAssign_end hend) trivial
  | submitted hsub => exact h.of_eq (Checked.bind_eq hsub) trivial
  | requeued hk hy => exact h.of_eq (finishRequeue_step hk hy) trivial
  | cleared => exact h.of_eq rfl trivial
  | bumped => exact holds_outside (h.serial _ rfl) rfl

/-- Only the hand-over changes the global id, and it leads out of the global
branch. -/
theorem Holds.globalCpuid (h : Holds cfg pc s)
    (hstep : SchedStep cfg c s pc pc' s') (hin : pc'.inside = true) :
    s'.globalCpuid = s.globalCpuid := by
  cases hstep with
  | outside | entered | picking | draining | searching | collected | exhausted
  | requeued | cleared => rfl
  | nowhere | handedOver | bumped => cases hin
  | found hsearch | passed hsearch =>
      obtain ⟨rfl, hp⟩ := h.fits
      exact (searchCpu_frame hp hsearch).1
  | settled hset => exact (settleTarget_settled hset).confined.globalCpuid
  | vacated hvac =>
      have hp : Placed s ∅ := h.fits
      cases vacateTarget_cases hp hvac with
      | idle _ => rfl
      | evicted _ _ _ _ => rfl
  | scanned hscan => exact (scanCpu_cases hscan).confined.globalCpuid
  | assigned hmore hd hassign =>
      obtain ⟨k, ht, has⟩ := assignTask_taken h.fits hd hassign
      exact has.globalCpuid.trans ht.globalCpuid
  | submitted hsub =>
      split at hsub
      · cases Checked.pure_ok.mp hsub
        rfl
      · cases Checked.modify_ok.mp hsub
        rfl

end Holds

end GhostDataplane.Agent
