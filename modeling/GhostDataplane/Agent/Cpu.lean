import Mathlib.Data.List.Nodup

/-!
# CPUs, CPU lists and the topology

The agent names a CPU by its id and keeps sets of CPUs in a `CpuList`, a
bitmap whose iteration runs upwards by id. `CpuList` here is the ascending
list of the ids whose bit is set, with the order carried as a field, so that
`front` is the lowest set id and a walk over the list is the walk of the
source's range-for. A `Cpu` object that may be uninitialized is an
`Option CpuId`.

The topology is the machine's own: which CPUs share a core, which share a
last-level cache and which NUMA node each belongs to. Nothing relates the
three.
-/

namespace GhostDataplane.Agent

/-- A CPU id. -/
abbrev CpuId := Nat

/-- A set of CPUs, as the ascending list of its members. -/
structure CpuList where
  ids : List CpuId
  sorted : ids.Pairwise (· < ·)
deriving DecidableEq

namespace CpuList

instance : Membership CpuId CpuList := ⟨fun l c => c ∈ l.ids⟩

instance (c : CpuId) (l : CpuList) : Decidable (c ∈ l) :=
  inferInstanceAs (Decidable (c ∈ l.ids))

theorem mem_def {c : CpuId} {l : CpuList} : c ∈ l ↔ c ∈ l.ids := Iff.rfl

/-- `EmptyCpuList()`. -/
def emptyCpuList : CpuList := ⟨[], List.Pairwise.nil⟩

/-- Put an id into its place in an ascending list. -/
def insertId (c : CpuId) : List CpuId → List CpuId
  | [] => [c]
  | x :: xs =>
      if c < x then c :: x :: xs
      else if c = x then x :: xs
      else x :: insertId c xs

theorem mem_insertId {c d : CpuId} {l : List CpuId} :
    d ∈ insertId c l ↔ d = c ∨ d ∈ l := by
  induction l with
  | nil => simp [insertId]
  | cons x xs ih =>
      rw [insertId]
      split
      · simp
      · split
        · next hx =>
            subst hx
            simp
        · rw [List.mem_cons, ih, List.mem_cons]
          tauto

theorem insertId_sorted {c : CpuId} {l : List CpuId}
    (h : l.Pairwise (· < ·)) : (insertId c l).Pairwise (· < ·) := by
  induction l with
  | nil => exact List.pairwise_singleton _ _
  | cons x xs ih =>
      obtain ⟨hx, hxs⟩ := List.pairwise_cons.mp h
      rw [insertId]
      split
      · next hlt =>
          refine List.pairwise_cons.mpr ⟨fun y hy => ?_, h⟩
          rcases List.mem_cons.mp hy with rfl | hmem
          · exact hlt
          · exact Nat.lt_trans hlt (hx y hmem)
      · next hlt =>
          split
          · exact h
          · next hne =>
              refine List.pairwise_cons.mpr ⟨fun y hy => ?_, ih hxs⟩
              rcases mem_insertId.mp hy with rfl | hmem
              · exact Nat.lt_of_le_of_ne (Nat.le_of_not_lt hlt) (Ne.symm hne)
              · exact hx y hmem

/-- `Set(id)`. -/
def set (l : CpuList) (c : CpuId) : CpuList :=
  ⟨insertId c l.ids, insertId_sorted l.sorted⟩

/-- `Clear(id)`. -/
def clear (l : CpuList) (c : CpuId) : CpuList :=
  ⟨l.ids.filter (· ≠ c), l.sorted.filter _⟩

/-- `IsSet(id)`. -/
def isSet (l : CpuList) (c : CpuId) : Bool := decide (c ∈ l)

/-- `Intersection(other)`. -/
def intersection (l other : CpuList) : CpuList :=
  ⟨l.ids.filter (· ∈ other), l.sorted.filter _⟩

/-- `Empty()`. -/
def isEmpty (l : CpuList) : Bool := l.ids.isEmpty

/-- `Front()`: the lowest set CPU, an uninitialized one if there is none. -/
def front (l : CpuList) : Option CpuId := l.ids.head?

@[simp] theorem not_mem_emptyCpuList {c : CpuId} : c ∉ emptyCpuList := by
  rw [mem_def]
  exact List.not_mem_nil

@[simp] theorem mem_set {l : CpuList} {c d : CpuId} :
    d ∈ l.set c ↔ d = c ∨ d ∈ l := mem_insertId

@[simp] theorem mem_clear {l : CpuList} {c d : CpuId} :
    d ∈ l.clear c ↔ d ∈ l ∧ d ≠ c := by
  simp [mem_def, clear]

@[simp] theorem mem_intersection {l other : CpuList} {c : CpuId} :
    c ∈ l.intersection other ↔ c ∈ l ∧ c ∈ other := by
  simp [mem_def, intersection]

@[simp] theorem isSet_iff {l : CpuList} {c : CpuId} :
    l.isSet c = true ↔ c ∈ l := by
  simp [isSet]

theorem isEmpty_iff {l : CpuList} : l.isEmpty = true ↔ ∀ c, c ∉ l := by
  rw [isEmpty, List.isEmpty_iff, List.eq_nil_iff_forall_not_mem]
  exact Iff.rfl

theorem front_mem {l : CpuList} {c : CpuId} (h : l.front = some c) :
    c ∈ l := List.mem_of_head? h

theorem front_eq_none {l : CpuList} : l.front = none ↔ l.isEmpty = true := by
  rw [front, List.head?_eq_none_iff, isEmpty, List.isEmpty_iff]

theorem nodup (l : CpuList) : l.ids.Nodup :=
  l.sorted.imp fun h => Nat.ne_of_lt h

/-- Clearing a set bit leaves one bit fewer. -/
theorem length_clear {l : CpuList} {c : CpuId} (h : c ∈ l) :
    (l.clear c).ids.length + 1 = l.ids.length := by
  have herase : (l.clear c).ids = l.ids.erase c := by
    rw [l.nodup.erase_eq_filter]
    exact List.filter_congr fun x _ => by by_cases hx : x = c <;> simp [hx]
  rw [herase]
  exact List.length_erase_add_one (mem_def.mp h)

end CpuList

/-- What the machine's topology says about each CPU. -/
structure Topology where
  siblings : CpuId → CpuList
  l3Siblings : CpuId → CpuList
  numaNode : CpuId → Nat

end GhostDataplane.Agent
