import GhostDataplane.Proofs.Assign

/-!
# The turns of the assignment loop

The loop of `GlobalSchedule` runs while there is a CPU to offer and a task to
take. An eviction puts a task back into a run queue, so the queues alone do
not say that it ends; but an eviction also spends a preemption candidate, and
no candidate is ever added. The variant is therefore the number of queued
tasks plus the number of candidates, and every turn pays one of it. This
needs nothing of the state: the queues may hold a task twice or a task that
is gone, the CPUs may be in any condition and the kernel may answer anything.
A turn in such a state may fail a check, but that ends the loop as well.

`Turns` is the loop without its fuel. A chain of turns may be cut off
anywhere, so it also covers the rounds that stop at a failed check;
`assignLoop_run` says that the loop returns exactly at the end of a chain
that has nowhere to go.
-/

namespace GhostDataplane.Agent

open GhostDataplane.Lib

/-! ## What the operations add to the run queues -/

/-- The number of queued tasks. -/
def queueLength (s : NetScheduler) : Nat :=
  s.runQueue.length + s.runQueueLowPriority.length

theorem length_push {s : NetScheduler} {t : TaskId} {k : NetTask} :
    (s.push t k).runQueue.length + (s.push t k).runQueueLowPriority.length =
      s.runQueue.length + s.runQueueLowPriority.length + 1 := by
  have hend : ∀ q, (NetScheduler.pushEnd q t k).length = q.length + 1 := by
    intro q
    unfold NetScheduler.pushEnd
    split <;> simp
  simp only [NetScheduler.push]
  split
  · rw [hend]
    omega
  · rw [hend]
    omega

section Adds

open Checked

theorem deref_adds {t : TaskId} : Adds queueLength 0 (deref t) := by
  intro s k s' h
  obtain ⟨k', -, hr⟩ := deref_ok.mp h
  cases hr
  rfl

theorem modifyTask_adds {t : TaskId} {f : NetTask → NetTask} :
    Adds queueLength 0 (modifyTask t f) := by
  intro s u s' h
  obtain ⟨k, -, hr⟩ := modifyTask_ok.mp h
  cases hr
  rfl

theorem check_adds {b : Bool} {c : Check} : Adds queueLength 0 (check b c) :=
  adds_check

theorem enqueue_adds {t : TaskId} : Adds queueLength 1 (enqueue t) := by
  refine modifyTask_adds.andThen fun _ => deref_adds.andThen fun k => ?_
  exact adds_modify fun _ => length_push

theorem openRequest_adds {c : CpuId} {n : TaskId} {b : Bool} {cs : CpuState} :
    Adds queueLength 0 (openRequest c n b cs) :=
  deref_adds.andThen fun _ => adds_modify fun _ => rfl

theorem updateTaskRuntime_adds {t : TaskId} {r : Nat} {b : Bool} :
    Adds queueLength 0 (updateTaskRuntime t r b) :=
  deref_adds.andThen fun _ => check_adds.andThen fun _ => modifyTask_adds

theorem yieldTask_adds {t : TaskId} : Adds queueLength 0 (yieldTask t) := by
  refine deref_adds.andThen fun _ => check_adds.andThen fun _ => ?_
  exact modifyTask_adds.andThen fun _ => adds_modify fun _ => rfl

theorem preemptTask_adds {prev next : Option TaskId} {st : TxnState}
    {swRuntime : TaskId → Nat} :
    Adds queueLength 0 (preemptTask prev next st swRuntime) := by
  cases prev with
  | none => exact adds_throw
  | some p =>
      refine deref_adds.andThen fun k => check_adds.andThen fun _ =>
        check_adds.andThen fun _ => ?_
      split
      · exact adds_pure
      · split
        · exact adds_throw
        · refine deref_adds.andThen fun _ => check_adds.andThen fun _ =>
            adds_get.andThen fun _ => openRequest_adds.andThen fun _ => ?_
          refine (adds_modify fun _ => rfl).andThen fun _ => ?_
          split
          · refine (adds_modify fun _ => rfl).andThen fun _ => ?_
            exact modifyTask_adds.andThen fun _ =>
              updateTaskRuntime_adds.andThen fun _ => adds_pure
          · exact adds_pure
        · refine (adds_modify fun _ => rfl).andThen fun _ => ?_
          refine (adds_modify fun _ => rfl).andThen fun _ => ?_
          refine check_adds.andThen fun _ => ?_
          exact (adds_modify fun _ => rfl).andThen fun _ => adds_pure

/-- An eviction adds the evicted task. -/
theorem replaceExistingTask_adds {c : CpuId} {n : TaskId} {st : TxnState}
    {swRuntime : TaskId → Nat} {now : Int} :
    Adds queueLength 1 (replaceExistingTask c n st swRuntime now) := by
  refine adds_get.andThen fun s => preemptTask_adds.andThen fun inSync => ?_
  split
  · exact adds_throw
  · refine modifyTask_adds.andThen fun _ => enqueue_adds.andNothing fun _ => ?_
    refine Adds.andThen ?_ fun _ => modifyTask_adds.andThen fun _ =>
      adds_modify fun _ => rfl
    split
    · exact modifyTask_adds.andThen fun _ => adds_modify fun _ => rfl
    · exact (adds_modify fun _ => rfl).andThen fun _ => yieldTask_adds

theorem assignIdle_adds {env : RoundEnv} {c : CpuId} {n : TaskId} :
    Adds queueLength 0 (assignIdle env c n) := by
  refine adds_get.andThen fun s => check_adds.andThen fun _ =>
    check_adds.andThen fun _ => (adds_modify fun _ => rfl).andThen fun _ => ?_
  exact openRequest_adds.andThen fun _ => modifyTask_adds.andThen fun _ =>
    adds_modify fun _ => rfl

end Adds

/-! ## No operation but the loop runs out of fuel -/

section Avoids

open Checked

theorem deref_avoids {t : TaskId} : Avoids .outOfFuel (deref t) := by
  intro s h
  unfold deref at h
  split at h <;> cases h

theorem modifyTask_avoids {t : TaskId} {f : NetTask → NetTask} :
    Avoids .outOfFuel (modifyTask t f) := by
  intro s h
  unfold modifyTask at h
  split at h <;> cases h

theorem check_avoids {b : Bool} {c : Check} : Avoids .outOfFuel (check b c) :=
  avoids_check (by simp)

theorem committed_avoids {c : CpuId} {answer : Option TxnState} :
    Avoids .outOfFuel (committed c answer) := by
  intro s h
  unfold committed at h
  split at h <;> cases h

theorem enqueue_avoids {t : TaskId} : Avoids .outOfFuel (enqueue t) :=
  modifyTask_avoids.bind fun _ => deref_avoids.bind fun _ => avoids_modify

theorem dequeue_avoids : Avoids .outOfFuel dequeue := by
  intro s h
  unfold dequeue at h
  split at h
  · cases h
  · split at h <;> cases h

theorem yieldTask_avoids {t : TaskId} : Avoids .outOfFuel (yieldTask t) :=
  deref_avoids.bind fun _ => check_avoids.bind fun _ =>
    modifyTask_avoids.bind fun _ => avoids_modify

theorem openRequest_avoids {c : CpuId} {n : TaskId} {b : Bool}
    {cs : CpuState} : Avoids .outOfFuel (openRequest c n b cs) :=
  deref_avoids.bind fun _ => avoids_modify

theorem updateTaskRuntime_avoids {t : TaskId} {r : Nat} {b : Bool} :
    Avoids .outOfFuel (updateTaskRuntime t r b) :=
  deref_avoids.bind fun _ => check_avoids.bind fun _ => modifyTask_avoids

theorem syncCpuState_avoids {cpu : Option CpuId} {answer : Option TxnState} :
    Avoids .outOfFuel (syncCpuState cpu answer) := by
  cases cpu with
  | none => exact avoids_throw (by simp)
  | some c =>
      refine avoids_get.bind fun s => ?_
      split
      · exact avoids_pure
      · refine deref_avoids.bind fun _ => check_avoids.bind fun _ =>
          committed_avoids.bind fun _ => check_avoids.bind fun _ =>
          avoids_modify.bind fun _ => avoids_get.bind fun _ => ?_
        split
        · exact avoids_throw (by simp)
        · exact avoids_modify.bind fun _ => modifyTask_avoids.bind fun _ =>
            avoids_modify.bind fun _ => avoids_pure
        · exact modifyTask_avoids.bind fun _ => enqueue_avoids.bind fun _ =>
            avoids_modify.bind fun _ => avoids_pure

theorem preemptTask_avoids {prev next : Option TaskId} {st : TxnState}
    {swRuntime : TaskId → Nat} :
    Avoids .outOfFuel (preemptTask prev next st swRuntime) := by
  cases prev with
  | none => exact avoids_throw (by simp)
  | some p =>
      refine deref_avoids.bind fun k => check_avoids.bind fun _ =>
        check_avoids.bind fun _ => ?_
      split
      · exact avoids_pure
      · split
        · exact avoids_throw (by simp)
        · refine deref_avoids.bind fun _ => check_avoids.bind fun _ =>
            avoids_get.bind fun _ => openRequest_avoids.bind fun _ =>
            avoids_modify.bind fun _ => ?_
          split
          · exact avoids_modify.bind fun _ => modifyTask_avoids.bind fun _ =>
              updateTaskRuntime_avoids.bind fun _ => avoids_pure
          · exact avoids_pure
        · exact avoids_modify.bind fun _ => avoids_modify.bind fun _ =>
            check_avoids.bind fun _ => avoids_modify.bind fun _ => avoids_pure

theorem replaceExistingTask_avoids {c : CpuId} {n : TaskId} {st : TxnState}
    {swRuntime : TaskId → Nat} {now : Int} :
    Avoids .outOfFuel (replaceExistingTask c n st swRuntime now) := by
  refine avoids_get.bind fun s => preemptTask_avoids.bind fun inSync => ?_
  split
  · exact avoids_throw (by simp)
  · refine modifyTask_avoids.bind fun _ => enqueue_avoids.bind fun _ => ?_
    refine Avoids.bind ?_ fun _ => modifyTask_avoids.bind fun _ => avoids_modify
    split
    · exact modifyTask_avoids.bind fun _ => avoids_modify
    · exact avoids_modify.bind fun _ => yieldTask_avoids

theorem assignIdle_avoids {env : RoundEnv} {c : CpuId} {n : TaskId} :
    Avoids .outOfFuel (assignIdle env c n) :=
  avoids_get.bind fun _ => check_avoids.bind fun _ => check_avoids.bind fun _ =>
    avoids_modify.bind fun _ => openRequest_avoids.bind fun _ =>
    modifyTask_avoids.bind fun _ => avoids_modify

theorem assignTask_avoids {cfg : Config} {env : RoundEnv} {n : TaskId}
    {a : Assign} : Avoids .outOfFuel (assignTask cfg env n a) := by
  refine deref_avoids.bind fun k => check_avoids.bind fun _ => ?_
  split
  · exact yieldTask_avoids.bind fun _ => avoids_pure
  · split
    · exact assignIdle_avoids.bind fun _ => avoids_pure
    · split
      · exact replaceExistingTask_avoids.bind fun _ => avoids_pure
      · exact yieldTask_avoids.bind fun _ => avoids_pure

theorem classify_avoids {env : RoundEnv} {c : CpuId} {a : Scan} :
    Avoids .outOfFuel (classify env c a) := by
  refine avoids_get.bind fun s => ?_
  split
  · split <;> exact avoids_pure
  · refine deref_avoids.bind fun _ => ?_
    split <;> exact avoids_pure

theorem scanCpu_avoids {env : RoundEnv} {c : CpuId} {a : Scan} :
    Avoids .outOfFuel (scanCpu env c a) := by
  refine avoids_get.bind fun s => ?_
  split
  · refine Avoids.bind ?_ fun _ => avoids_pure
    split
    · refine committed_avoids.bind fun _ => ?_
      split
      · exact syncCpuState_avoids.bind fun _ => avoids_pure
      · exact avoids_pure
    · exact avoids_pure
  · split
    · exact avoids_pure
    · refine committed_avoids.bind fun _ => ?_
      split
      · exact syncCpuState_avoids.bind fun _ => classify_avoids
      · exact avoids_pure

theorem scanCpus_avoids {env : RoundEnv} {cs : List CpuId} {a : Scan} :
    Avoids .outOfFuel (scanCpus env cs a) := by
  induction cs generalizing a with
  | nil => exact avoids_pure
  | cons c cs ih => exact scanCpu_avoids.bind fun _ => ih

theorem requeue_avoids {ts : List TaskId} : Avoids .outOfFuel (requeue ts) := by
  induction ts with
  | nil => exact avoids_pure
  | cons t ts ih =>
      exact deref_avoids.bind fun _ => check_avoids.bind fun _ =>
        enqueue_avoids.bind fun _ => ih

end Avoids

/-! ## The variant -/

/-- The turns that the loop can still take. -/
def turnsLeft (s : NetScheduler) (a : Assign) : Nat :=
  s.runQueue.length + s.runQueueLowPriority.length +
    a.availCpusLowPriority.ids.length

section Variant

variable {cfg : Config} {env : RoundEnv} {n : TaskId} {a a' : Assign}
  {s s₁ s' : NetScheduler}

theorem dequeue_queueLength (h : dequeue s = .ok (some n, s₁)) :
    queueLength s = queueLength s₁ + 1 := by
  unfold queueLength
  rcases dequeue_some h with ⟨rest, hq, rfl⟩ | ⟨hq, rest, hl, rfl⟩
  · simp only [hq, List.length_cons]
    omega
  · simp only [hl, List.length_cons]
    omega

/-- What the body of the loop adds to the queues it takes from the
candidates. -/
theorem assignTask_variant (h : assignTask cfg env n a s = .ok (a', s')) :
    queueLength s' + a'.availCpusLowPriority.ids.length =
      queueLength s + a.availCpusLowPriority.ids.length := by
  obtain ⟨k, -, h⟩ := bind_deref.mp h
  obtain ⟨-, h⟩ := bind_check.mp h
  split at h
  · obtain ⟨u, s₁, hy, h⟩ := Checked.bind_ok.mp h
    cases Checked.pure_ok.mp h
    rw [yieldTask_adds s u s' hy, Nat.add_zero]
  · cases hpick : pickNextCpu cfg.topology a.availCpus k
        cfg.enforceAffinityMask with
    | some c =>
        simp only [hpick] at h
        obtain ⟨u, s₁, hidle, h⟩ := Checked.bind_ok.mp h
        cases Checked.pure_ok.mp h
        rw [assignIdle_adds s u s' hidle, Nat.add_zero]
    | none =>
        cases hlow : pickNextCpu cfg.topology a.availCpusLowPriority k
            cfg.enforceAffinityMask with
        | some c =>
            simp only [hpick, hlow] at h
            obtain ⟨u, s₁, hrep, h⟩ := Checked.bind_ok.mp h
            cases Checked.pure_ok.mp h
            have hclear := CpuList.length_clear (pickNextCpu_mem hlow).1
            rw [replaceExistingTask_adds s u s' hrep]
            show queueLength s + 1 +
              (a.availCpusLowPriority.clear c).ids.length = _
            omega
        | none =>
            simp only [hpick, hlow] at h
            obtain ⟨u, s₁, hy, h⟩ := Checked.bind_ok.mp h
            cases Checked.pure_ok.mp h
            rw [yieldTask_adds s u s' hy, Nat.add_zero]

/-- A turn pays one. -/
theorem turn_variant (hd : dequeue s = .ok (some n, s₁))
    (h : assignTask cfg env n a s₁ = .ok (a', s')) :
    turnsLeft s a = turnsLeft s' a' + 1 := by
  have htask := assignTask_variant h
  have hdeq := dequeue_queueLength hd
  unfold queueLength at htask hdeq
  unfold turnsLeft
  omega

/-- The loop does not notice how much is left of more turns than it needs. -/
theorem assignLoop_fuel {fuel fuel' : Nat} (hfuel : turnsLeft s a < fuel)
    (hfuel' : turnsLeft s a < fuel') :
    assignLoop cfg env fuel a s = assignLoop cfg env fuel' a s := by
  induction fuel generalizing fuel' a s with
  | zero => exact absurd hfuel (Nat.not_lt_zero _)
  | succ fuel ih =>
      cases fuel' with
      | zero => exact absurd hfuel' (Nat.not_lt_zero _)
      | succ fuel' =>
          unfold assignLoop
          split
          · rfl
          · refine Checked.bind_congr fun next s₁ hd => ?_
            cases next with
            | none => rfl
            | some n =>
                refine Checked.bind_congr fun a' s₂ hassign => ?_
                have hless := turn_variant hd hassign
                exact ih (by omega) (by omega)

/-- Enough fuel does not run out. -/
theorem assignLoop_avoids {fuel : Nat} (hfuel : turnsLeft s a < fuel) :
    assignLoop cfg env fuel a s ≠ .error .outOfFuel := by
  induction fuel generalizing a s with
  | zero => exact absurd hfuel (Nat.not_lt_zero _)
  | succ fuel ih =>
      unfold assignLoop
      split
      · exact Checked.avoids_pure s
      · refine Checked.avoids_bind_at (dequeue_avoids s) fun next s₁ hd => ?_
        cases next with
        | none => exact Checked.avoids_pure s₁
        | some n =>
            refine Checked.avoids_bind_at (assignTask_avoids s₁)
              fun a' s₂ hassign => ?_
            have hless := turn_variant hd hassign
            exact ih (by omega)

/-- The round takes care that its loop has enough. -/
theorem globalSchedule_avoids {s : NetScheduler} :
    globalSchedule cfg env s ≠ .error .outOfFuel := by
  refine Checked.avoids_bind_at (scanCpus_avoids s) fun scan s₁ _ => ?_
  rw [Checked.get_bind]
  refine Checked.avoids_bind_at (assignLoop_avoids (Nat.lt_succ_self _))
    fun a s₂ _ => ?_
  refine Checked.Avoids.bind ?_ (fun _ => Checked.avoids_get.bind fun _ =>
    requeue_avoids.bind fun _ => Checked.avoids_modify.bind fun _ =>
    Checked.avoids_modify) s₂
  split
  · exact Checked.avoids_pure
  · exact Checked.avoids_modify

end Variant

/-! ## Chains of turns -/

/-- A turn of the loop: the tables and the CPU sets at its beginning, and the
task that was taken off a run queue. -/
structure Turn where
  state : NetScheduler
  sets : Assign
  next : TaskId
  task : NetTask

/-- The loop took these turns, and may go on. -/
inductive Turns (cfg : Config) (env : RoundEnv) :
    Assign → NetScheduler → List Turn → Assign → NetScheduler → Prop where
  | nil {a : Assign} {s : NetScheduler} : Turns cfg env a s [] a s
  | cons {a a₁ a' : Assign} {s s₁ s₂ s' : NetScheduler} {n : TaskId}
      {k : NetTask} {ts : List Turn}
      (hmore : (a.availCpus.isEmpty && a.availCpusLowPriority.isEmpty) = false)
      (hd : dequeue s = .ok (some n, s₁)) (hk : s₁.task n = .live k)
      (hassign : assignTask cfg env n a s₁ = .ok (a₁, s₂))
      (hrest : Turns cfg env a₁ s₂ ts a' s') :
      Turns cfg env a s (⟨s, a, n, k⟩ :: ts) a' s'

/-- The loop has nowhere to go: it has no CPU to offer, or no task to take. -/
def Exhausted (a : Assign) (s : NetScheduler) : Prop :=
  (a.availCpus.isEmpty && a.availCpusLowPriority.isEmpty) = true ∨
    dequeue s = .ok (none, s)

section Turns

variable {cfg : Config} {env : RoundEnv} {a a' : Assign}
  {s s' : NetScheduler} {ts : List Turn}

theorem Turns.variant (h : Turns cfg env a s ts a' s') :
    ts.length + turnsLeft s' a' = turnsLeft s a := by
  induction h with
  | nil => simp
  | cons _ hd _ hassign _ ih =>
      rw [turn_variant hd hassign, List.length_cons]
      omega

/-- What survives a turn holds at the end of a chain and before each of its
turns. -/
theorem Turns.invariant {I : NetScheduler → Assign → Prop}
    (hstep : ∀ s a n k s₁ s' a', Placed s ∅ → I s a → Taken s n k s₁ →
      AssignStep cfg env n k s₁ a s' a' → I s' a')
    (h : Turns cfg env a s ts a' s') (hp : Placed s ∅) (hi : I s a) :
    I s' a' ∧ ∀ t ∈ ts, I t.state t.sets := by
  induction h with
  | nil => exact ⟨hi, List.forall_mem_nil _⟩
  | cons _ hd _ hassign _ ih =>
      obtain ⟨k, ht, has⟩ := assignTask_taken hp hd hassign
      obtain ⟨hend, hturns⟩ :=
        ih (hp.moves (has.moves ht)) (hstep _ _ _ _ _ _ _ hp hi ht has)
      exact ⟨hend, List.forall_mem_cons.mpr ⟨hi, hturns⟩⟩

/-- The loop returns at the end of a chain that has nowhere to go. -/
theorem assignLoop_run {fuel : Nat} :
    assignLoop cfg env fuel a s = .ok (a', s') ↔
      ∃ ts, Turns cfg env a s ts a' s' ∧ Exhausted a' s' ∧
        ts.length < fuel := by
  constructor
  · intro h
    induction fuel generalizing a s with
    | zero => exact (Checked.throw_ok.mp h).elim
    | succ fuel ih =>
        unfold assignLoop at h
        split at h
        · next hempty =>
            cases Checked.pure_ok.mp h
            exact ⟨[], .nil, Or.inl hempty, Nat.succ_pos fuel⟩
        · next hmore =>
            obtain ⟨next, s₁, hd, h⟩ := Checked.bind_ok.mp h
            cases next with
            | none =>
                cases Checked.pure_ok.mp h
                obtain ⟨-, -, rfl⟩ := dequeue_none hd
                exact ⟨[], .nil, Or.inr hd, Nat.succ_pos fuel⟩
            | some n =>
                obtain ⟨a₁, s₂, hassign, h⟩ := Checked.bind_ok.mp h
                obtain ⟨k, hk, -⟩ := bind_deref.mp hassign
                obtain ⟨ts, hturns, hend, hlen⟩ := ih h
                exact ⟨_, .cons (by simpa using hmore) hd hk hassign hturns,
                  hend, Nat.succ_lt_succ hlen⟩
  · rintro ⟨ts, hturns, hend, hlen⟩
    induction hturns generalizing fuel with
    | nil =>
        obtain ⟨fuel, rfl⟩ := Nat.exists_eq_succ_of_ne_zero (Nat.ne_of_gt hlen)
        unfold assignLoop
        split
        · rfl
        · next hmore => rw [Checked.bind_eq (hend.resolve_left hmore)]; rfl
    | cons hmore hd _ hassign _ ih =>
        obtain ⟨fuel, rfl⟩ :=
          Nat.exists_eq_succ_of_ne_zero (Nat.ne_of_gt (Nat.zero_lt_of_lt hlen))
        rw [assignLoop, if_neg (by rw [hmore]; simp), Checked.bind_eq hd]
        simp only []
        rw [Checked.bind_eq hassign]
        exact ih hend (Nat.lt_of_succ_lt_succ hlen)

end Turns

end GhostDataplane.Agent
