import GhostDataplane.Engine.Coprocessor
import Mathlib.Data.List.Range

/-!
# Freeing the rules

The global `rules` points to the array of the last setup, whoever made it. As
long as each coprocessor is torn down before the next is set up that is its
own array, and everything is freed once. As soon as a setup finds another
coprocessor running it overwrites the only pointer to that one's array, and
nobody will free it: `Stale` is such an array, and it stays so. The teardowns
that would have freed it free the newer array instead, one after the other.

So the memory of the rules is in order exactly in the runs in which no two
coprocessors are alive at the same time.
-/

namespace GhostDataplane.Engine

/-- The identities of the array and of its rules. -/
def RuleArray.blocks (a : RuleArray) : List Nat :=
  a.entries.map Prod.fst ++ [a.ptr]

theorem RuleArray.ptr_mem_blocks (a : RuleArray) : a.ptr ∈ a.blocks :=
  List.mem_append_right _ (List.mem_singleton_self _)

/-- What a teardown would pass to `free` now. -/
def Fleet.toFree (f : Fleet) : List Nat :=
  freeList f.globals.rules f.globals.numRules

/-- The teardown of `i` frees nothing twice and nothing that belongs to
another coprocessor that is still running. -/
structure TeardownOk (f : Fleet) (i : Nat) : Prop where
  nodup : f.toFree.Nodup
  once : ∀ p ∈ f.toFree, p ∉ f.globals.freed
  own : ∀ j a, (j, a) ∈ f.arrays → j ≠ i → f.phase j = .running →
    ∀ p ∈ f.toFree, p ∉ a.blocks

def TeardownsOk (f : Fleet) : List Call → Prop
  | [] => True
  | c :: cs =>
      (match c with
      | .setup _ _ _ => True
      | .teardown i => TeardownOk f i) ∧ TeardownsOk (f.call c) cs

/-- Every teardown is in order, and in the end every array was freed. -/
structure FreedOnce (f : Fleet) (cs : List Call) : Prop where
  teardowns : TeardownsOk f cs
  arrays : ∀ j a, (j, a) ∈ (f.calls cs).arrays →
    a.ptr ∈ (f.calls cs).globals.freed

/-- No coprocessor is set up while another is running. -/
def OneAtATime (f : Fleet) : List Call → Prop
  | [] => True
  | c :: cs =>
      (match c with
      | .setup _ _ _ => ∀ j, f.phase j ≠ .running
      | .teardown _ => True) ∧ OneAtATime (f.call c) cs

/-! ## The allocator -/

theorem mallocRules_ptrs (brk : Nat) (file : List FwRule) :
    (mallocRules brk file).map Prod.fst = List.range' brk file.length := by
  induction file generalizing brk with
  | nil => rfl
  | cons rule file ih =>
      rw [mallocRules, List.map_cons, ih, List.length_cons, List.range'_succ]

theorem mallocRules_length (brk : Nat) (file : List FwRule) :
    (mallocRules brk file).length = file.length := by
  rw [← List.length_map Prod.fst, mallocRules_ptrs, List.length_range']

theorem mallocRules_rules (brk : Nat) (file : List FwRule) :
    (mallocRules brk file).map Prod.snd = file := by
  induction file generalizing brk with
  | nil => rfl
  | cons rule file ih => rw [mallocRules, List.map_cons, ih]

section Setup

variable {file : List FwRule} {g : Globals}

theorem mem_blocks_setupRules {p : Nat}
    (hp : p ∈ (setupRules file g).1.blocks) :
    g.brk ≤ p ∧ p < (setupRules file g).2.brk := by
  unfold RuleArray.blocks at hp
  rw [List.mem_append, List.mem_singleton] at hp
  simp only [setupRules, mallocRules_ptrs, List.mem_range'_1] at hp ⊢
  omega

theorem nodup_blocks_setupRules : (setupRules file g).1.blocks.Nodup := by
  unfold RuleArray.blocks
  simp only [setupRules, mallocRules_ptrs]
  refine List.nodup_append.mpr ⟨List.nodup_range', by simp, ?_⟩
  intro p hp q hq
  rw [List.mem_range'_1] at hp
  rw [List.mem_singleton] at hq
  omega

theorem freeList_whole {a : RuleArray} :
    freeList (some a) a.entries.length = a.blocks := by
  rw [freeList, List.take_length]
  rfl

theorem mem_freeList {a : RuleArray} {n p : Nat}
    (hp : p ∈ freeList (some a) n) : p ∈ a.blocks := by
  rw [freeList, List.map_take, List.mem_append] at hp
  rw [RuleArray.blocks, List.mem_append]
  exact hp.imp_left List.mem_of_mem_take

end Setup

/-! ## Stale arrays -/

/-- An array that was not freed and that the global no longer points to. -/
structure Stale (f : Fleet) (j : Nat) (a : RuleArray) : Prop where
  allocated : (j, a) ∈ f.arrays
  notFreed : a.ptr ∉ f.globals.freed
  below : a.ptr < f.globals.brk
  lost : ∀ b, f.globals.rules = some b → a.ptr ∉ b.blocks

theorem Stale.call {f : Fleet} {j : Nat} {a : RuleArray} (h : Stale f j a)
    (c : Call) : Stale (f.call c) j a := by
  cases c with
  | setup i env file =>
      refine ⟨List.mem_cons_of_mem _ h.allocated, h.notFreed, ?_,
        fun b hb hmem => ?_⟩
      · exact Nat.lt_add_right _ (Nat.lt_succ_of_lt h.below)
      · cases hb
        exact absurd (mem_blocks_setupRules hmem).1 (Nat.not_le_of_lt h.below)
  | teardown i =>
      refine ⟨h.allocated, fun hmem => ?_, h.below, h.lost⟩
      rcases List.mem_append.mp hmem with hmem | hmem
      · exact h.notFreed hmem
      · cases hrules : f.globals.rules with
        | none =>
            rw [hrules] at hmem
            cases hmem
        | some b =>
            rw [hrules] at hmem
            exact h.lost b hrules (mem_freeList hmem)

theorem Stale.calls {f : Fleet} {j : Nat} {a : RuleArray} (h : Stale f j a)
    (cs : List Call) : Stale (f.calls cs) j a := by
  induction cs generalizing f with
  | nil => exact h
  | cons c cs ih => exact ih (h.call c)

/-! ## One at a time -/

/-- Coprocessor `i` runs alone, with its own array `a` behind the global. -/
structure Alone (f : Fleet) (i : Nat) (a : RuleArray) : Prop where
  running : ∀ j, f.phase j = .running ↔ j = i
  rules : f.globals.rules = some a
  numRules : f.globals.numRules = a.entries.length
  allocated : (i, a) ∈ f.arrays
  notFreed : ∀ p ∈ a.blocks, p ∉ f.globals.freed
  nodup : a.blocks.Nodup
  others : ∀ j b, (j, b) ∈ f.arrays → (j, b) = (i, a) ∨ b.ptr ∈ f.globals.freed

/-- The fleet after a run in which no two coprocessors were alive at once. -/
structure Tidy (f : Fleet) : Prop where
  freed : ∀ p ∈ f.globals.freed, p < f.globals.brk
  arrays : ∀ j a, (j, a) ∈ f.arrays → ∀ p ∈ a.blocks, p < f.globals.brk
  phases : ((∀ i, f.phase i ≠ .running) ∧
      ∀ j a, (j, a) ∈ f.arrays → a.ptr ∈ f.globals.freed) ∨
    ∃ i a, Alone f i a

section Tidy

variable {f : Fleet} {i : Nat} {a : RuleArray} {env : LpmEnv}
  {file : List FwRule}

theorem Alone.toFree (h : Alone f i a) : f.toFree = a.blocks := by
  rw [Fleet.toFree, h.rules, h.numRules, freeList_whole]

theorem Alone.teardownOk (h : Alone f i a) : TeardownOk f i := by
  refine ⟨?_, ?_, fun j b _ hj hrun => absurd ((h.running j).mp hrun) hj⟩
  · rw [h.toFree]
    exact h.nodup
  · rw [h.toFree]
    exact h.notFreed

theorem Tidy.setup (h : Tidy f) (hidle : ∀ j, f.phase j ≠ .running) :
    Tidy (f.call (.setup i env file)) := by
  have hfreed : ∀ j b, (j, b) ∈ f.arrays → b.ptr ∈ f.globals.freed := by
    rcases h.phases with ⟨-, hfreed⟩ | ⟨j, b, halone⟩
    · exact hfreed
    · exact absurd ((halone.running j).mpr rfl) (hidle j)
  have hgrow : f.globals.brk < (setupRules file f.globals).2.brk :=
    Nat.lt_add_right _ (Nat.lt_succ_self _)
  refine ⟨fun p hp => Nat.lt_trans (h.freed p hp) hgrow, fun j b hb p hp => ?_,
    Or.inr ⟨i, (setupRules file f.globals).1, ?_⟩⟩
  · rcases List.mem_cons.mp hb with heq | hb
    · cases heq
      exact (mem_blocks_setupRules hp).2
    · exact Nat.lt_trans (h.arrays j b hb p hp) hgrow
  · refine ⟨fun j => ?_, rfl, (mallocRules_length _ _).symm, List.mem_cons_self,
      fun p hp hmem => ?_, nodup_blocks_setupRules, fun j b hb => ?_⟩
    · show Function.update f.phase i .running j = .running ↔ j = i
      by_cases hji : j = i
      · simp [hji]
      · simp [hji, hidle j]
    · exact absurd (h.freed p hmem)
        (Nat.not_lt_of_le (mem_blocks_setupRules hp).1)
    · exact (List.mem_cons.mp hb).imp_right (hfreed j b)

theorem Alone.teardown (h : Alone f i a) (ht : Tidy f) :
    Tidy (f.call (.teardown i)) := by
  have hfreed : (f.call (.teardown i)).globals.freed =
      f.globals.freed ++ a.blocks := by
    rw [← h.toFree]
    rfl
  refine ⟨fun p hp => ?_, ht.arrays,
    Or.inl ⟨fun j hrun => ?_, fun j b hb => ?_⟩⟩
  · rw [hfreed, List.mem_append] at hp
    rcases hp with hp | hp
    · exact ht.freed p hp
    · exact ht.arrays i a h.allocated p hp
  · by_cases hji : j = i
    · have hstopped : (f.call (.teardown i)).phase i = .stopped :=
        Function.update_self i _ _
      rw [hji, hstopped] at hrun
      cases hrun
    · have hsame : (f.call (.teardown i)).phase j = f.phase j :=
        Function.update_of_ne hji _ _
      exact hji ((h.running j).mp (hsame.symm.trans hrun))
  · rw [hfreed, List.mem_append]
    rcases h.others j b hb with heq | hmem
    · cases heq
      exact Or.inr a.ptr_mem_blocks
    · exact Or.inl hmem

/-- A setup that finds another coprocessor running loses its array. -/
theorem Alone.stale (h : Alone f i a) (ht : Tidy f) (j : Nat) (env : LpmEnv)
    (file : List FwRule) : Stale (f.call (.setup j env file)) i a := by
  have hbelow := ht.arrays i a h.allocated a.ptr a.ptr_mem_blocks
  refine ⟨List.mem_cons_of_mem _ h.allocated, h.notFreed a.ptr a.ptr_mem_blocks,
    Nat.lt_add_right _ (Nat.lt_succ_of_lt hbelow), fun b hb hmem => ?_⟩
  cases hb
  exact absurd (mem_blocks_setupRules hmem).1 (Nat.not_le_of_lt hbelow)

end Tidy

/-! ## All orders -/

theorem freedOnce_setup {f : Fleet} {i : Nat} {env : LpmEnv}
    {file : List FwRule} {cs : List Call} :
    FreedOnce f (.setup i env file :: cs) ↔
      FreedOnce (f.call (.setup i env file)) cs :=
  ⟨fun h => ⟨h.teardowns.2, h.arrays⟩,
    fun h => ⟨⟨trivial, h.teardowns⟩, h.arrays⟩⟩

theorem freedOnce_teardown {f : Fleet} {i : Nat} {cs : List Call} :
    FreedOnce f (.teardown i :: cs) ↔
      TeardownOk f i ∧ FreedOnce (f.call (.teardown i)) cs :=
  ⟨fun h => ⟨h.teardowns.1, h.teardowns.2, h.arrays⟩,
    fun h => ⟨⟨h.1, h.2.teardowns⟩, h.2.arrays⟩⟩

/-- Induction over the calls, from a fleet that was tidy so far: the first
setup that overlaps decides against both sides. -/
theorem Tidy.freedOnce_iff {f : Fleet} {cs : List Call} (h : Tidy f)
    (horder : InOrder f cs) (hdone : ∀ i, (f.calls cs).phase i ≠ .running) :
    FreedOnce f cs ↔ OneAtATime f cs := by
  induction cs generalizing f with
  | nil =>
      refine iff_of_true ⟨trivial, ?_⟩ trivial
      rcases h.phases with ⟨-, hfreed⟩ | ⟨i, a, halone⟩
      · exact hfreed
      · exact absurd ((halone.running i).mpr rfl) (hdone i)
  | cons c cs ih =>
      obtain ⟨hready, horder⟩ := horder
      cases c with
      | setup i env file =>
          rw [freedOnce_setup]
          by_cases hidle : ∀ j, f.phase j ≠ .running
          · rw [ih (h.setup hidle) horder hdone]
            exact (and_iff_right hidle).symm
          · refine iff_of_false (fun hfreed => ?_) fun hone => hidle hone.1
            rcases h.phases with ⟨hnone, -⟩ | ⟨j, a, halone⟩
            · exact hidle hnone
            · have hstale := (halone.stale h i env file).calls cs
              exact hstale.notFreed (hfreed.arrays j a hstale.allocated)
      | teardown i =>
          rcases h.phases with ⟨hnone, -⟩ | ⟨j, a, halone⟩
          · exact absurd hready (hnone i)
          · obtain rfl := (halone.running i).mp hready
            rw [freedOnce_teardown, and_iff_right halone.teardownOk,
              ih (halone.teardown h) horder hdone]
            exact (and_iff_right trivial).symm

theorem tidy_start : Tidy Fleet.start :=
  ⟨nofun, nofun, Or.inl ⟨nofun, nofun⟩⟩

/-- For any number of coprocessors and any order of their setups and
teardowns, the rules are freed once exactly if no coprocessor is set up while
another is running. -/
theorem rules_freed_once_iff {n : Nat} {cs : List Call}
    (horder : InOrder .start cs)
    (hdone : ∀ i, (Fleet.start.calls cs).phase i =
      if i < n then .stopped else .fresh) :
    FreedOnce .start cs ↔ OneAtATime .start cs := by
  refine tidy_start.freedOnce_iff horder fun i hrun => ?_
  rw [hdone] at hrun
  split at hrun <;> cases hrun

/-- Two coprocessors with one rule each, one after the other. -/
def sequentialCalls : List Call :=
  [.setup 0 sampleLpmEnv [sampleRule], .teardown 0,
    .setup 1 sampleLpmEnv [sampleRule], .teardown 1]

theorem rules_freed_once_iff_sequential :
    FreedOnce .start sequentialCalls := by
  have horder : InOrder .start sequentialCalls := ⟨rfl, rfl, rfl, rfl, trivial⟩
  have hdone : ∀ i, (Fleet.start.calls sequentialCalls).phase i =
      if i < 2 then .stopped else .fresh := by
    intro i
    rcases i with _ | _ | i <;> rfl
  have hidle : ∀ j, (Fleet.start.calls (sequentialCalls.take 2)).phase j ≠
      .running := by
    intro j
    cases j with
    | zero => exact nofun
    | succ j => exact nofun
  exact (rules_freed_once_iff horder hdone).mpr
    ⟨nofun, trivial, hidle, trivial, trivial⟩

/-- Two coprocessors with one rule each, at the same time. -/
def overlappingCalls : List Call :=
  [.setup 0 sampleLpmEnv [sampleRule], .setup 1 sampleLpmEnv [sampleRule],
    .teardown 0, .teardown 1]

/-- The first teardown frees the array and the rule of the coprocessor that
is still running, the second frees them again, and the array of the first is
never freed. -/
theorem overlapping_coprocessors_leak :
    InOrder .start overlappingCalls ∧
      (∀ i, (Fleet.start.calls overlappingCalls).phase i =
        if i < 2 then .stopped else .fresh) ∧
      (∃ a, (1, a) ∈ (Fleet.start.calls (overlappingCalls.take 2)).arrays ∧
        (Fleet.start.calls (overlappingCalls.take 2)).phase 1 = .running ∧
        (Fleet.start.calls (overlappingCalls.take 2)).toFree = a.blocks) ∧
      (Fleet.start.calls overlappingCalls).globals.freed = [3, 2, 3, 2] ∧
      ∃ a, (0, a) ∈ (Fleet.start.calls overlappingCalls).arrays ∧
        a.ptr ∉ (Fleet.start.calls overlappingCalls).globals.freed := by
  refine ⟨⟨rfl, rfl, rfl, rfl, trivial⟩, fun i => ?_,
    ⟨_, List.mem_cons_self, rfl, rfl⟩, rfl, ⟨0, [(1, sampleRule)]⟩,
    List.mem_cons_of_mem _ List.mem_cons_self, ?_⟩
  · rcases i with _ | _ | i <;> rfl
  · show (0 : Nat) ∉ [3, 2, 3, 2]
    decide

end GhostDataplane.Engine
