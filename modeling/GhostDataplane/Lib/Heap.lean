import Mathlib.Data.List.Perm.Basic
import Mathlib.Data.List.Nodup

/-!
# Allocation

A heap hands out blocks and takes them back. Which requests it grants is not up
to the program: `grants` answers the requests in the order in which they come,
and an arbitrary `grants` is an arbitrary pattern of failures. A block is named
by the request that it answered, so that no two are ever the same, and
returning one that is not live is refused.

A part of a program is specified by what it leaves live. `Gains h h' blocks`
says that `h'` comes after `h` and has `blocks` live beside all that was live;
a part that returns what it took gains nothing. What else is live in `h` is not
mentioned, so the statement holds wherever the part is used, and gains add up
along a run. `Refused h h'` says that a request on the way was not granted,
which is for the parts that may fail for that reason and no other.
-/

namespace GhostDataplane.Lib

/-- The blocks that are live, and how the requests will be answered. -/
structure Heap where
  /-- Is the request with this number granted? -/
  grants : Nat → Bool
  /-- The number of requests so far. -/
  asked : Nat
  live : List Nat
  nodup : live.Nodup
  lt_asked : ∀ p ∈ live, p < asked

namespace Heap

/-- The heap of a program that begins. -/
def start (grants : Nat → Bool) : Heap where
  grants := grants
  asked := 0
  live := []
  nodup := List.nodup_nil
  lt_asked := List.forall_mem_nil _

/-- `malloc`. -/
def allocate (h : Heap) : Option Nat × Heap :=
  if h.grants h.asked then
    (some h.asked,
      { h with
        asked := h.asked + 1
        live := h.asked :: h.live
        nodup := h.nodup.cons fun hp => Nat.lt_irrefl _ (h.lt_asked _ hp)
        lt_asked := by
          intro p hp
          rcases List.mem_cons.mp hp with rfl | hp
          · exact Nat.lt_succ_self _
          · exact Nat.lt_succ_of_lt (h.lt_asked p hp) })
  else
    (none,
      { h with
        asked := h.asked + 1
        lt_asked := fun p hp => Nat.lt_succ_of_lt (h.lt_asked p hp) })

/-- `free`, of a block that is live. -/
def free (p : Nat) (h : Heap) : Option Heap :=
  if p ∈ h.live then
    some
      { h with
        live := h.live.erase p
        nodup := h.nodup.erase p
        lt_asked := fun q hq => h.lt_asked q (List.mem_of_mem_erase hq) }
  else none

/-! ## What a part of a run leaves live -/

/-- `h'` comes after `h`, and `blocks` have become live. -/
structure Gains (h h' : Heap) (blocks : List Nat) : Prop where
  grants : h'.grants = h.grants
  asked : h.asked ≤ h'.asked
  live : h'.live.Perm (blocks ++ h.live)

/-- A request between `h` and `h'` was not granted. -/
def Refused (h h' : Heap) : Prop :=
  ∃ i, h.asked ≤ i ∧ i < h'.asked ∧ h.grants i = false

variable {h h₁ h₂ : Heap} {blocks blocks' : List Nat} {p : Nat}

theorem Gains.refl (h : Heap) :
    h.Gains h [] := ⟨rfl, Nat.le_refl _, List.Perm.refl _⟩

theorem Gains.perm (hg : h.Gains h₁ blocks) (hp : blocks.Perm blocks') :
    h.Gains h₁ blocks' :=
  ⟨hg.grants, hg.asked, hg.live.trans (hp.append_right _)⟩

theorem Gains.trans (hg : h.Gains h₁ blocks) (hg' : h₁.Gains h₂ blocks') :
    h.Gains h₂ (blocks' ++ blocks) where
  grants := hg'.grants.trans hg.grants
  asked := Nat.le_trans hg.asked hg'.asked
  live := by
    rw [List.append_assoc]
    exact hg'.live.trans (hg.live.append_left _)

/-- A part that gains nothing can be left out of the account. -/
theorem Gains.trans_nil (hg : h.Gains h₁ blocks) (hg' : h₁.Gains h₂ []) :
    h.Gains h₂ blocks := hg.trans hg'

/-- What is gained is new, and each block of it is gained once. -/
theorem Gains.nodup (hg : h.Gains h₁ blocks) :
    blocks.Nodup ∧ ∀ p ∈ blocks, p ∉ h.live := by
  have hnodup := List.nodup_append.mp (hg.live.nodup_iff.mp h₁.nodup)
  exact ⟨hnodup.1, fun p hp hlive => hnodup.2.2 p hp p hlive rfl⟩

theorem Refused.mono (hr : h.Refused h₁) (hle : h₁.asked ≤ h₂.asked) :
    h.Refused h₂ := by
  obtain ⟨i, hi, hlt, hno⟩ := hr
  exact ⟨i, hi, Nat.lt_of_lt_of_le hlt hle, hno⟩

theorem Gains.trans_refused (hg : h.Gains h₁ blocks) (hr : h₁.Refused h₂) :
    h.Refused h₂ := by
  obtain ⟨i, hi, hlt, hno⟩ := hr
  exact ⟨i, Nat.le_trans hg.asked hi, hlt, by rw [← hg.grants]; exact hno⟩

/-- If every request is granted then none is refused. -/
theorem not_refused (hall : ∀ i, h.grants i = true) : ¬ h.Refused h₁ := by
  rintro ⟨i, -, -, hno⟩
  rw [hall i] at hno
  cases hno

/-! ## The two operations -/

theorem allocate_some (ha : h.allocate = (some p, h₁)) : h.Gains h₁ [p] := by
  unfold allocate at ha
  split at ha
  · cases ha
    exact ⟨rfl, Nat.le_succ _, List.Perm.refl _⟩
  · cases ha

theorem allocate_none (ha : h.allocate = (none, h₁)) :
    h.Gains h₁ [] ∧ h.Refused h₁ := by
  unfold allocate at ha
  split at ha
  · cases ha
  · next hno =>
      cases ha
      refine ⟨⟨rfl, Nat.le_succ _, List.Perm.refl _⟩, h.asked, Nat.le_refl _,
        Nat.lt_succ_self _, ?_⟩
      exact Bool.eq_false_iff.mpr hno

theorem allocate_of_grants (hall : ∀ i, h.grants i = true) :
    ∃ p h₁, h.allocate = (some p, h₁) ∧ h.Gains h₁ [p] := by
  have ha : h.allocate = (some h.asked, h.allocate.2) := by
    rw [allocate, if_pos (hall _)]
  exact ⟨h.asked, h.allocate.2, ha, allocate_some ha⟩

/-- A block that was gained can be returned. -/
theorem Gains.free (hg : h.Gains h₁ (p :: blocks)) :
    ∃ h₂, h₁.free p = some h₂ ∧ h.Gains h₂ blocks ∧ h₂.asked = h₁.asked := by
  have hp : p ∈ h₁.live := hg.live.mem_iff.mpr List.mem_cons_self
  refine ⟨_, if_pos hp, ⟨hg.grants, hg.asked, ?_⟩, rfl⟩
  have herase := hg.live.erase p
  rwa [List.cons_append, List.erase_cons_head] at herase

end Heap

end GhostDataplane.Lib
