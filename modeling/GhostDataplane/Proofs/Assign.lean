import GhostDataplane.Proofs.Scan

/-!
# The assignment loop

`AssignStep` lists what the loop can do with a task it has taken off a run
queue: open a batched transaction on an idle CPU, replace the task of a
preemption candidate, or let the task yield. `assignLoop_invariant` is the
rule all arguments about the loop go through.
-/

namespace GhostDataplane.Agent

open GhostDataplane.Lib

/-- The CPUs that `PickNextCpu` chooses from. -/
def allowedCpus (avail : CpuList) (k : NetTask) (enforce : Bool) : CpuList :=
  if enforce then k.allowedCpulist.intersection avail else avail

theorem mem_allowedCpus {avail : CpuList} {k : NetTask} {enforce : Bool}
    {c : CpuId} :
    c ∈ allowedCpus avail k enforce ↔
      c ∈ avail ∧ (enforce = true → c ∈ k.allowedCpulist) := by
  unfold allowedCpus
  cases enforce with
  | false => simp
  | true => simp [and_comm]

/-- The CPU that was picked is available, and allowed if that is enforced. -/
theorem pickNextCpu_mem {topology : Topology} {avail : CpuList} {k : NetTask}
    {enforce : Bool} {c : CpuId}
    (h : pickNextCpu topology avail k enforce = some c) :
    c ∈ avail ∧ (enforce = true → c ∈ k.allowedCpulist) := by
  rw [← mem_allowedCpus]
  unfold pickNextCpu at h
  simp only [← allowedCpus.eq_def] at h
  split at h
  · cases h
  split at h
  · exact CpuList.front_mem h
  split at h
  · next hset =>
      cases h
      exact CpuList.isSet_iff.mp hset
  split at h
  · next hfront =>
      cases h
      exact (CpuList.mem_intersection.mp (CpuList.front_mem hfront)).1
  split at h
  · next hfront =>
      cases h
      exact (CpuList.mem_intersection.mp (CpuList.front_mem hfront)).1
  split at h
  · next hfind =>
      cases h
      exact List.mem_of_find?_eq_some hfind
  · exact CpuList.front_mem h

/-- No CPU is picked only if none is both available and allowed. -/
theorem pickNextCpu_none {topology : Topology} {avail : CpuList} {k : NetTask}
    {enforce : Bool} (h : pickNextCpu topology avail k enforce = none)
    (c : CpuId) : c ∉ allowedCpus avail k enforce := by
  unfold pickNextCpu at h
  simp only [← allowedCpus.eq_def] at h
  split at h
  · next hempty => exact CpuList.isEmpty_iff.mp hempty c
  · next hne =>
      have hfront : (allowedCpus avail k enforce).front ≠ none :=
        fun hf => hne (CpuList.front_eq_none.mp hf)
      split at h
      · exact absurd h hfront
      split at h
      · cases h
      split at h
      · cases h
      split at h
      · cases h
      split at h
      · cases h
      · exact absurd h hfront

/-- The record of a task that waits for its batched transaction. -/
def NetTask.submitted (k : NetTask) (c : CpuId) (now : Int) : NetTask :=
  { k with
    runState := .pending
    cpu := some c
    prioBoost := k.prioBoost || k.preempted
    preempted := false
    startSubmit := some now }

theorem assignIdle_ok {env : RoundEnv} {c : CpuId} {n : TaskId} {k : NetTask}
    {s s' : NetScheduler} (hk : s.task n = .live k) :
    assignIdle env c n s = .ok ((), s') ↔
      (s.cpuStates c).next = none ∧ (s.cpuStates c).current = none ∧
        s' = (s.openBatched c n k).setTask n
          (k.submitted c (env.submitTime n)) := by
  simp only [assignIdle, Checked.bind_get, bind_check, decide_eq_true_eq,
    Checked.bind_modify]
  rw [openRequest_bind (s := s.setNext c (some n)) hk,
    modifyTask_bind (by exact hk), Checked.modify_ok]
  constructor
  · rintro ⟨hn, hc, hr⟩
    cases hr
    exact ⟨hn, hc, rfl⟩
  · rintro ⟨hn, hc, rfl⟩
    exact ⟨hn, hc, rfl⟩

/-- The tables after a task in hand yielded. -/
def NetScheduler.yielded (s : NetScheduler) (t : TaskId) (k : NetTask) :
    NetScheduler :=
  { s.setTask t { k with runState := .yielding } with
    yieldingTasks := s.yieldingTasks ++ [t] }

/-- The task was seen off its CPU and no message about it is under way. -/
def Ready (env : RoundEnv) (n : TaskId) (k : NetTask) : Prop :=
  env.onCpu n = false ∧ k.seqnum = env.barrier n

/-- All that the body of the loop can do with the task `n` in hand. -/
inductive AssignStep (cfg : Config) (env : RoundEnv) (n : TaskId)
    (k : NetTask) (s : NetScheduler) (a : Assign) :
    NetScheduler → Assign → Prop where
  | stale (hstale : ¬ Ready env n k) :
      AssignStep cfg env n k s a (s.yielded n k) a
  | batched {c : CpuId} (hready : Ready env n k)
      (hpick : pickNextCpu cfg.topology a.availCpus k cfg.enforceAffinityMask
        = some c)
      (hnext : (s.cpuStates c).next = none)
      (hcur : (s.cpuStates c).current = none) :
      AssignStep cfg env n k s a
        ((s.openBatched c n k).setTask n (k.submitted c (env.submitTime n)))
        { a with
          availCpus := a.availCpus.clear c
          assignedCpus := a.assignedCpus.set c }
  | replaced {c : CpuId} {p : TaskId} {kp : NetTask} {s' : NetScheduler}
      (hready : Ready env n k)
      (hidle : pickNextCpu cfg.topology a.availCpus k cfg.enforceAffinityMask
        = none)
      (hpick : pickNextCpu cfg.topology a.availCpusLowPriority k
        cfg.enforceAffinityMask = some c)
      (hrep : Replaced s c n k (env.commit c) env.swRuntime (env.submitTime n)
        p kp s') :
      AssignStep cfg env n k s a s'
        { a with availCpusLowPriority := a.availCpusLowPriority.clear c }
  | unplaced (hready : Ready env n k)
      (hidle : pickNextCpu cfg.topology a.availCpus k cfg.enforceAffinityMask
        = none)
      (hlow : pickNextCpu cfg.topology a.availCpusLowPriority k
        cfg.enforceAffinityMask = none) :
      AssignStep cfg env n k s a (s.yielded n k) a

theorem yieldTask_eq {t : TaskId} {k : NetTask} {s s' : NetScheduler}
    {u : Unit} (hk : s.task t = .live k) (h : yieldTask t s = .ok (u, s')) :
    s' = s.yielded t k := by
  obtain ⟨k', hk', -, rfl⟩ := yieldTask_ok.mp h
  cases hk.symm.trans hk'
  rfl

theorem assignTask_cases {cfg : Config} {env : RoundEnv} {n : TaskId}
    {k : NetTask} {a a' : Assign} {s s' : NetScheduler} {H : Set TaskId}
    (hp : Placed s H) (hk : s.task n = .live k) (hq : k.runState = .queued)
    (h : assignTask cfg env n a s = .ok (a', s')) :
    AssignStep cfg env n k s a s' a' := by
  rw [assignTask, deref_bind hk] at h
  obtain ⟨-, h⟩ := bind_check.mp h
  split at h
  · next hstale =>
      obtain ⟨_, s₁, hy, h⟩ := Checked.bind_ok.mp h
      cases Checked.pure_ok.mp h
      cases yieldTask_eq hk hy
      refine .stale fun hr => ?_
      rw [hr.1, hr.2] at hstale
      simp at hstale
  · next hready =>
      have hready : Ready env n k := by
        simp only [ne_eq, Bool.or_eq_true, decide_eq_true_eq, not_or,
          Bool.not_eq_true, Decidable.not_not] at hready
        exact hready
      cases hpick : pickNextCpu cfg.topology a.availCpus k
          cfg.enforceAffinityMask with
      | some c =>
          simp only [hpick] at h
          obtain ⟨_, s₁, hidle, h⟩ := Checked.bind_ok.mp h
          cases Checked.pure_ok.mp h
          obtain ⟨hn, hc, rfl⟩ := (assignIdle_ok hk).mp hidle
          exact .batched hready hpick hn hc
      | none =>
          simp only [hpick] at h
          cases hlow : pickNextCpu cfg.topology a.availCpusLowPriority k
              cfg.enforceAffinityMask with
          | some c =>
              simp only [hlow] at h
              obtain ⟨_, s₁, hrep, h⟩ := Checked.bind_ok.mp h
              cases Checked.pure_ok.mp h
              obtain ⟨p, kp, hrep⟩ := replaceExistingTask_cases hp hk hq hrep
              exact .replaced hready hpick hlow hrep
          | none =>
              simp only [hlow] at h
              obtain ⟨_, s₁, hy, h⟩ := Checked.bind_ok.mp h
              cases Checked.pure_ok.mp h
              cases yieldTask_eq hk hy
              exact .unplaced hready hpick hlow

/-- `n` was taken off a run queue and is in hand. Its record still says that
it is queued. -/
structure Taken (s : NetScheduler) (n : TaskId) (k : NetTask)
    (s₁ : NetScheduler) : Prop where
  dequeued : dequeue s = .ok (some n, s₁)
  live : s₁.task n = .live k
  queued : k.runState = .queued
  placed : Placed s₁ (insert n ∅)

theorem Taken.task {s s₁ : NetScheduler} {n : TaskId} {k : NetTask}
    (h : Taken s n k s₁) : s₁.task = s.task := dequeue_task h.dequeued

theorem Taken.cpuStates {s s₁ : NetScheduler} {n : TaskId} {k : NetTask}
    (h : Taken s n k s₁) : s₁.cpuStates = s.cpuStates :=
  dequeue_cpuStates h.dequeued

theorem taken_of_dequeue {s s₁ : NetScheduler} {n : TaskId} {k : NetTask}
    (hp : Placed s ∅) (hd : dequeue s = .ok (some n, s₁))
    (hk : s₁.task n = .live k) : Taken s n k s₁ := by
  have hk' : s.task n = .live k := dequeue_task hd ▸ hk
  exact ⟨hd, hk, (hp.queued_of_mem hk' (dequeue_mem hd)).2, hp.dequeue hk' hd⟩

theorem AssignStep.moves {cfg : Config} {env : RoundEnv} {n : TaskId}
    {k : NetTask} {s s₁ s' : NetScheduler} {a a' : Assign}
    (h : AssignStep cfg env n k s₁ a s' a') (ht : Taken s n k s₁) :
    Moves s ∅ s' ∅ := by
  have hmem : n ∈ insert n (∅ : Set TaskId) := Set.mem_insert n ∅
  have hk := ht.live
  have hd : Move s ∅ s₁ (insert n ∅) := .dequeue (ht.task ▸ hk) ht.dequeued
  suffices hm : Moves s₁ (insert n ∅) s' (insert n ∅ \ {n}) by
    rw [insert_diff (Set.notMem_empty n)] at hm
    exact .head hd hm
  cases h with
  | stale | unplaced => exact (Move.yield hk hmem).moves
  | @batched c _ _ hnext hcur =>
      have hm : Move s₁ (insert n ∅) ((s₁.openBatched c n k).setTask n
          (k.submitted c (env.submitTime n))) (insert n ∅ \ {n}) :=
        .openBatched hk hmem hcur hnext rfl rfl rfl
      exact hm.moves
  | replaced _ _ _ hrep => exact hrep.moves ht.placed hmem hk

/-- A turn of the loop is `Taken` and an `AssignStep`. -/
theorem assignTask_taken {cfg : Config} {env : RoundEnv} {n : TaskId}
    {a a' : Assign} {s s₁ s' : NetScheduler} (hp : Placed s ∅)
    (hd : dequeue s = .ok (some n, s₁))
    (h : assignTask cfg env n a s₁ = .ok (a', s')) :
    ∃ k, Taken s n k s₁ ∧ AssignStep cfg env n k s₁ a s' a' := by
  obtain ⟨k, hk, -⟩ := bind_deref.mp h
  have ht := taken_of_dequeue hp hd hk
  exact ⟨k, ht, assignTask_cases ht.placed hk ht.queued h⟩

/-- The loop's invariant rule: what survives taking one task off the queues
and dealing with it survives the loop. -/
theorem assignLoop_invariant {cfg : Config} {env : RoundEnv}
    {I : NetScheduler → Assign → Prop}
    (hstep : ∀ s a n k s₁ s' a', Placed s ∅ → I s a → Taken s n k s₁ →
      AssignStep cfg env n k s₁ a s' a' → I s' a')
    {fuel : Nat} {a a' : Assign} {s s' : NetScheduler} (hp : Placed s ∅)
    (hi : I s a) (h : assignLoop cfg env fuel a s = .ok (a', s')) :
    I s' a' := by
  induction fuel generalizing a s with
  | zero => exact (Checked.throw_ok.mp h).elim
  | succ fuel ih =>
      unfold assignLoop at h
      split at h
      · cases Checked.pure_ok.mp h
        exact hi
      · obtain ⟨next, s₁, hd, h⟩ := Checked.bind_ok.mp h
        cases next with
        | none =>
            cases Checked.pure_ok.mp h
            cases (dequeue_none hd).2.2
            exact hi
        | some n =>
            obtain ⟨a₁, s₂, hassign, h⟩ := Checked.bind_ok.mp h
            obtain ⟨k, ht, has⟩ := assignTask_taken hp hd hassign
            exact ih (hp.moves (has.moves ht))
              (hstep s a n k s₁ s₂ a₁ hp hi ht has) h

theorem assignLoop_moves {cfg : Config} {env : RoundEnv} {fuel : Nat}
    {a a' : Assign} {s s' : NetScheduler} (hp : Placed s ∅)
    (h : assignLoop cfg env fuel a s = .ok (a', s')) : Moves s ∅ s' ∅ :=
  assignLoop_invariant (I := fun s₁ _ => Moves s ∅ s₁ ∅)
    (fun _ _ _ _ _ _ _ _ hm ht has => hm.trans (has.moves ht)) hp .refl h

/-! ## What a turn of the loop leaves alone -/

section Replaced

variable {s s' : NetScheduler} {c : CpuId} {p n : TaskId} {k kn : NetTask}
  {st : TxnState} {swRuntime : TaskId → Nat} {now : Int}

theorem Replaced.confined (h : Replaced s c n kn st swRuntime now p k s') :
    Confined c s s' := by
  have hcpu : ∀ (s₁ : NetScheduler) d cs, d ≠ c →
      s₁.cpuStates = (s.setCurrent c none).cpuStates →
      (s₁.setCpu c cs).cpuStates d = s.cpuStates d := by
    intro s₁ d cs hd hs
    rw [setCpu_ne hd, hs, NetScheduler.setCurrent, setCpu_ne hd]
  rcases h.result with ⟨-, rfl⟩ | ⟨-, rfl⟩
  · refine ⟨fun d hd => hcpu _ d _ hd rfl,
      fun d hd => Function.update_of_ne hd _ _, ?_, rfl, rfl⟩
    rw [show (replacedOk s c p _ n kn now).cpuStates c = _ from
      setCpu_self _ c _]
  · refine ⟨fun d hd => setCpu_ne hd, fun d hd => Function.update_of_ne hd _ _,
      ?_, rfl, rfl⟩
    rw [show (replacedFail s c p k n kn st now).cpuStates c = _ from
      setCpu_self _ c _]
    rfl

theorem Replaced.log (h : Replaced s c n kn st swRuntime now p k s') :
    s'.log = s.log ++ [.opened ⟨c, n, false, s.cpuStates c, s.req c, kn⟩] := by
  rcases h.result with ⟨-, rfl⟩ | ⟨-, rfl⟩ <;> rfl

theorem Replaced.txnTotal (h : Replaced s c n kn st swRuntime now p k s') :
    s'.txnTotal = s.txnTotal + 1 := by
  rcases h.result with ⟨-, rfl⟩ | ⟨-, rfl⟩ <;> rfl

theorem Replaced.task_other (h : Replaced s c n kn st swRuntime now p k s')
    {u : TaskId} (hun : u ≠ n) (hup : u ≠ p) : s'.task u = s.task u := by
  rcases h.result with ⟨-, rfl⟩ | ⟨-, rfl⟩ <;>
    exact (setTask_task_ne hun).trans (setTask_task_ne hup)

/-- Nobody enters a run queue but the evicted task. -/
theorem Replaced.mem_queue (h : Replaced s c n kn st swRuntime now p k s')
    {u : TaskId} (hu : u ∈ s'.runQueue ++ s'.runQueueLowPriority) :
    u = p ∨ u ∈ s.runQueue ++ s.runQueueLowPriority := by
  rcases h.result with ⟨-, rfl⟩ | ⟨-, rfl⟩ <;> exact mem_push.mp hu

/-- The target runs on the CPU or yields. -/
theorem Replaced.task_target (h : Replaced s c n kn st swRuntime now p k s') :
    ∃ k', s'.task n = .live k' ∧
      (k'.runState = .onCpu ∧ k'.cpu = some c ∨ k'.runState = .yielding) := by
  rcases h.result with ⟨-, rfl⟩ | ⟨-, rfl⟩
  · exact ⟨_, setTask_task_self _ n _, Or.inl ⟨rfl, rfl⟩⟩
  · exact ⟨_, setTask_task_self _ n _, Or.inr rfl⟩

end Replaced

theorem openBatched_confined {s : NetScheduler} {c : CpuId} {n : TaskId}
    {k k' : NetTask} : Confined c s ((s.openBatched c n k).setTask n k') := by
  refine ⟨fun d hd => setCpu_ne hd, fun d hd => Function.update_of_ne hd _ _,
    ?_, rfl, rfl⟩
  rw [show ((s.openBatched c n k).setTask n k').cpuStates c = _ from
    setCpu_self s c _]

section Turn

variable {cfg : Config} {env : RoundEnv} {n : TaskId} {k : NetTask}
  {s s₁ s' : NetScheduler} {a a' : Assign}

theorem Taken.offers {s₀ : NetScheduler} {l l' : CpuList}
    (h : Taken s n k s₁) (ho : Offers cfg env s₀ s l l') :
    Offers cfg env s₀ s₁ l l' := by
  rcases dequeue_some h.dequeued with ⟨rest, -, rfl⟩ | ⟨-, rest, -, rfl⟩ <;>
    exact ho.congr rfl rfl rfl

theorem AssignStep.offers {s₀ : NetScheduler} (ht : Taken s n k s₁)
    (h : AssignStep cfg env n k s₁ a s' a')
    (ho : Offers cfg env s₀ s a.availCpus a.availCpusLowPriority) :
    Offers cfg env s₀ s' a'.availCpus a'.availCpusLowPriority := by
  have ho₁ := ht.offers ho
  cases h with
  | stale | unplaced => exact ho₁.congr rfl rfl rfl
  | batched _ hpick _ _ =>
      have hc := (pickNextCpu_mem hpick).1
      exact ho₁.confined openBatched_confined
        (fun d hd => CpuList.mem_clear.mp hd)
        (fun d hd => ⟨hd, Ne.symm (ho₁.disjoint hc hd)⟩)
  | replaced _ _ hpick hrep =>
      have hc := (pickNextCpu_mem hpick).1
      exact ho₁.confined hrep.confined
        (fun d hd => ⟨hd, ho₁.disjoint hd hc⟩)
        (fun d hd => CpuList.mem_clear.mp hd)

end Turn

/-! ## The return of the yielding tasks -/

theorem requeue_moves {ts : List TaskId} {s s' : NetScheduler} {u : Unit}
    {H : Set TaskId} (hp : Placed { s with yieldingTasks := ts } H)
    (h : requeue ts s = .ok (u, s')) :
    Moves { s with yieldingTasks := ts } H
      { s' with yieldingTasks := [] } H := by
  induction ts generalizing s with
  | nil =>
      cases Checked.pure_ok.mp h
      exact .refl
  | cons t ts ih =>
      obtain ⟨k, hk, h⟩ := bind_deref.mp h
      obtain ⟨-, h⟩ := bind_check.mp h
      rw [Checked.bind_eq (enqueue_eq hk)] at h
      obtain ⟨htH, -⟩ := hp.yielding_of_mem (t := t) hk (by simp)
      have hm₁ : Move { s with yieldingTasks := t :: ts } H
          { s with yieldingTasks := ts } (insert t H) := .unyield hk rfl
      have hm₂ := Move.enqueue (s := { s with yieldingTasks := ts }) hk
        (Set.mem_insert t H)
      rw [insert_diff htH] at hm₂
      exact .head hm₁ (.head hm₂ (ih ((hp.move hm₁).move hm₂) h))

/-! ## The phases of a round -/

/-- The states a round goes through: after the scan, after the loop, after
the submission and after the return of the yielding tasks. -/
structure Round (cfg : Config) (env : RoundEnv) (s : NetScheduler)
    (scan : Scan) (s₁ : NetScheduler) (a : Assign)
    (s₂ s₃ s₄ s' : NetScheduler) : Prop where
  scanned : scanCpus env cfg.cpus.ids ⟨.emptyCpuList, .emptyCpuList, 0⟩ s =
    .ok (scan, s₁)
  assigned : assignLoop cfg env
    (s₁.runQueue.length + s₁.runQueueLowPriority.length +
      scan.availCpusLowPriority.ids.length + 1)
    ⟨scan.availCpus, scan.availCpusLowPriority, .emptyCpuList⟩ s₁ = .ok (a, s₂)
  submitted : s₃ = s₂ ∨ s₃ = s₂.note (.submitted a.assignedCpus)
  requeued : requeue s₃.yieldingTasks s₃ = .ok ((), s₄)
  finished : s' = bumpCpuhist scan.unavail { s₄ with yieldingTasks := [] }

theorem globalSchedule_round {cfg : Config} {env : RoundEnv}
    {s s' : NetScheduler} (h : globalSchedule cfg env s = .ok ((), s')) :
    ∃ scan s₁ a s₂ s₃ s₄, Round cfg env s scan s₁ a s₂ s₃ s₄ s' := by
  obtain ⟨scan, s₁, hscan, h⟩ := Checked.bind_ok.mp h
  simp only [Checked.bind_get] at h
  obtain ⟨a, s₂, hloop, h⟩ := Checked.bind_ok.mp h
  obtain ⟨_, s₃, hsub, h⟩ := Checked.bind_ok.mp h
  simp only [Checked.bind_get] at h
  obtain ⟨_, s₄, hreq, h⟩ := Checked.bind_ok.mp h
  simp only [Checked.bind_modify, Checked.modify_ok] at h
  cases h
  refine ⟨scan, s₁, a, s₂, s₃, s₄, hscan, hloop, ?_, hreq, rfl⟩
  split at hsub
  · cases Checked.pure_ok.mp hsub
    exact Or.inl rfl
  · cases Checked.modify_ok.mp hsub
    exact Or.inr rfl

section Round

variable {cfg : Config} {env : RoundEnv} {scan : Scan} {a : Assign}
  {s s₁ s₂ s₃ s₄ s' : NetScheduler}

theorem Round.moves_scan (h : Round cfg env s scan s₁ a s₂ s₃ s₄ s')
    (hp : Placed s ∅) : Moves s ∅ s₁ ∅ := scanCpus_moves hp h.scanned

theorem Round.moves_assign (h : Round cfg env s scan s₁ a s₂ s₃ s₄ s')
    (hp : Placed s ∅) : Moves s₁ ∅ s₂ ∅ :=
  assignLoop_moves (hp.moves (h.moves_scan hp)) h.assigned

theorem Round.moves (h : Round cfg env s scan s₁ a s₂ s₃ s₄ s')
    (hp : Placed s ∅) : Moves s ∅ s' ∅ := by
  have hm := (h.moves_scan hp).trans (h.moves_assign hp)
  have hm₃ : Moves s₂ ∅ s₃ ∅ := by
    rcases h.submitted with rfl | rfl
    · exact .refl
    · exact Move.submit.moves
  have hm₄ := requeue_moves (hp.moves (hm.trans hm₃)) h.requeued
  rw [h.finished]
  exact hm.trans (hm₃.trans (hm₄.trans Move.bump.moves))

end Round

theorem globalSchedule_moves {cfg : Config} {env : RoundEnv}
    {s s' : NetScheduler} (hp : Placed s ∅)
    (h : globalSchedule cfg env s = .ok ((), s')) : Moves s ∅ s' ∅ := by
  obtain ⟨scan, s₁, a, s₂, s₃, s₄, hround⟩ := globalSchedule_round h
  exact hround.moves hp

end GhostDataplane.Agent
