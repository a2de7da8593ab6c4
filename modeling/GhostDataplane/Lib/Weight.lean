import GhostDataplane.Lib.Bank
import Mathlib.Algebra.BigOperators.Group.Finset.Basic

/-!
# How much there is left to carry

Give each place of a bank a weight, the number of times that a good in it may
still have to be carried. `Bank.load` is the sum over all goods. Carrying goods
to a place of less weight lowers it, unless there was nothing to carry and the
bank is the one it was before; and when it is zero nothing lies in a place that
has a weight.
-/

namespace GhostDataplane.Lib

namespace Bank

variable {ι α : Type} {places : Finset ι} {weight : ι → Nat} {k : Bank ι α}
  {a b : ι} {n : Nat}

/-- What is left to carry of the goods in these places. -/
def load (places : Finset ι) (weight : ι → Nat) (k : Bank ι α) : Nat :=
  ∑ a ∈ places, weight a * (k a).length

theorem load_eq_zero_iff :
    load places weight k = 0 ↔ ∀ a ∈ places, weight a = 0 ∨ k a = [] := by
  rw [load, Finset.sum_eq_zero_iff]
  simp only [Nat.mul_eq_zero, List.length_eq_zero_iff]

theorem load_congr {k' : Bank ι α} (h : ∀ c ∈ places, k' c = k c) :
    load places weight k' = load places weight k :=
  Finset.sum_congr rfl fun c hc => by rw [h c hc]

variable [DecidableEq ι]

/-- The two places that a shift changes, and the others. -/
theorem load_eq (ha : a ∈ places) (hb : b ∈ places) (hab : a ≠ b) :
    load places weight k = weight a * (k a).length + (weight b * (k b).length +
      load ((places.erase a).erase b) weight k) := by
  have hb' : b ∈ places.erase a := Finset.mem_erase.mpr ⟨hab.symm, hb⟩
  rw [load, ← Finset.add_sum_erase _ _ ha, ← Finset.add_sum_erase _ _ hb']
  rfl

/-- Goods that are carried to a place of less weight. -/
theorem load_shift_lt (ha : a ∈ places) (hb : b ∈ places) (hab : a ≠ b)
    (hweight : weight b < weight a) (hn : (k a).take n ≠ []) :
    load places weight (k.shift a b n) < load places weight k := by
  have hrest : load ((places.erase a).erase b) weight (k.shift a b n) =
      load ((places.erase a).erase b) weight k := by
    refine load_congr fun c hc => ?_
    obtain ⟨hcb, hc⟩ := Finset.mem_erase.mp hc
    exact shift_other (Finset.mem_erase.mp hc).1 hcb
  have hlength : ((k a).take n).length + ((k a).drop n).length =
      (k a).length := by
    rw [← List.length_append, List.take_append_drop]
  have hpos : 0 < ((k a).take n).length := List.length_pos_iff.mpr hn
  have hlt : weight b * ((k a).take n).length <
      weight a * ((k a).take n).length :=
    Nat.mul_lt_mul_of_pos_right hweight hpos
  rw [load_eq ha hb hab, load_eq ha hb hab, hrest, shift_source hab,
    shift_target, List.length_append, Nat.mul_add, ← hlength, Nat.mul_add]
  omega

/-- A shift to a place of less weight lowers the load or does nothing. -/
theorem load_shift (hb : b ∈ places) (hab : a ≠ b)
    (hweight : weight b < weight a) (ha : a ∈ places ∨ k a = []) :
    load places weight (k.shift a b n) < load places weight k ∨
    k.shift a b n = k := by
  by_cases hn : (k a).take n = []
  · right
    rcases List.take_eq_nil_iff.mp hn with rfl | hnil
    · rw [shift, List.take_zero, List.drop_zero, List.append_nil,
        Function.update_eq_self, Function.update_eq_self]
    · exact shift_nil hnil
  · refine .inl
      (load_shift_lt (ha.resolve_right fun hnil => hn ?_) hb hab hweight hn)
    rw [hnil, List.take_nil]

end Bank

end GhostDataplane.Lib
