import Mathlib.Data.List.Nodup
import Mathlib.Logic.Function.Basic

/-!
# Goods that move between places

A bank says what lies in each place of a system, oldest first. The only thing
that ever happens to a good is that it arrives, and that it is carried from
the front of one place to the back of another together with those in front
of it. Two facts about such a system need no more than that.

* Nothing is lost or doubled: `Bank.Sound k known` says that each known
  good lies in exactly one place, once, and that nothing else lies anywhere.
  `Sound.shift` and `Sound.arrive` keep it.

* Places in series are one queue: `Bank.flow stages φ k` is what lies in
  the places of `stages`, read in that order, as far as `φ` cares. Carrying
  goods from one stage to the one before it does not change it, carrying
  them out of the series leaves a sublist, and an arrival at the last stage
  is an arrival at its end.
-/

namespace GhostDataplane.Lib

/-- What lies in each place, oldest first. -/
abbrev Bank (ι α : Type) := ι → List α

namespace Bank

variable {ι α : Type}

/-- What lies in the places of `stages`, in this order, as far as `φ` cares. -/
def flow (stages : List ι) (φ : α → Bool) (k : Bank ι α) : List α :=
  stages.flatMap fun a => (k a).filter φ

variable {k k' : Bank ι α} {a : ι} {stages pre post : List ι} {φ : α → Bool}

theorem flow_append :
    flow (pre ++ post) φ k = flow pre φ k ++ flow post φ k :=
  List.flatMap_append

theorem flow_cons :
    flow (a :: stages) φ k = (k a).filter φ ++ flow stages φ k :=
  List.flatMap_cons

theorem flow_congr (h : ∀ a ∈ stages, (k' a).filter φ = (k a).filter φ) :
    flow stages φ k' = flow stages φ k := by
  induction stages with
  | nil => rfl
  | cons a stages ih =>
      rw [flow_cons, flow_cons, h a List.mem_cons_self,
        ih fun c hc => h c (List.mem_cons_of_mem a hc)]

theorem flow_sublist
    (h : ∀ a ∈ stages, ((k' a).filter φ).Sublist ((k a).filter φ)) :
    (flow stages φ k').Sublist (flow stages φ k) := by
  induction stages with
  | nil => exact List.Sublist.refl _
  | cons a stages ih =>
      rw [flow_cons, flow_cons]
      exact (h a List.mem_cons_self).append
        (ih fun c hc => h c (List.mem_cons_of_mem a hc))

theorem flow_eq_nil (h : ∀ a ∈ stages, k a = []) : flow stages φ k = [] := by
  induction stages with
  | nil => rfl
  | cons a stages ih =>
      rw [flow_cons, h a List.mem_cons_self,
        ih fun c hc => h c (List.mem_cons_of_mem a hc)]
      rfl

/-! ## What can happen -/

variable [DecidableEq ι]

/-- The `n` oldest goods of `a` go to the back of `b`. -/
def shift (k : Bank ι α) (a b : ι) (n : Nat) : Bank ι α :=
  Function.update (Function.update k a ((k a).drop n)) b (k b ++ (k a).take n)

/-- New goods at the back of `a`. -/
def arrive (k : Bank ι α) (a : ι) (xs : List α) : Bank ι α :=
  Function.update k a (k a ++ xs)

variable {b c : ι} {n : Nat} {xs : List α}

theorem shift_source (h : a ≠ b) : k.shift a b n a = (k a).drop n := by
  rw [shift, Function.update_of_ne h, Function.update_self]

theorem shift_target : k.shift a b n b = k b ++ (k a).take n := by
  rw [shift, Function.update_self]

theorem shift_other (ha : c ≠ a) (hb : c ≠ b) : k.shift a b n c = k c := by
  rw [shift, Function.update_of_ne hb, Function.update_of_ne ha]

theorem arrive_self : k.arrive a xs a = k a ++ xs := by
  rw [arrive, Function.update_self]

theorem arrive_other (h : c ≠ a) : k.arrive a xs c = k c := by
  rw [arrive, Function.update_of_ne h]

/-- A good was where it is, or was carried there. -/
theorem mem_shift {x : α} (hab : a ≠ b) (h : x ∈ k.shift a b n c) :
    x ∈ k c ∨ c = b ∧ x ∈ (k a).take n := by
  by_cases hcb : c = b
  · rw [hcb, shift_target, List.mem_append] at h
    exact h.imp (fun hmem => hcb ▸ hmem) fun hmem => ⟨hcb, hmem⟩
  · by_cases hca : c = a
    · rw [hca, shift_source hab] at h
      exact Or.inl (hca ▸ List.mem_of_mem_drop h)
    · rw [shift_other hca hcb] at h
      exact Or.inl h

theorem shift_nil (h : k a = []) : k.shift a b n = k := by
  rw [shift, h, List.drop_nil, List.take_nil, List.append_nil, ← h,
    Function.update_eq_self, Function.update_eq_self]

/-- Carrying the first `n` goods of a place to `b` and the rest to `c`. -/
theorem shift_rest (hab : a ≠ b) (hac : a ≠ c) (hbc : b ≠ c) :
    (k.shift a b n).shift a c (k a).length =
      Function.update (Function.update (Function.update k b
        (k b ++ (k a).take n)) c (k c ++ (k a).drop n)) a [] := by
  funext d
  by_cases hda : d = a
  · rw [hda, shift_source hac, shift_source hab, Function.update_self]
    exact List.drop_eq_nil_of_le (by rw [List.length_drop]; omega)
  · rw [Function.update_of_ne hda]
    by_cases hdc : d = c
    · rw [hdc, shift_target, shift_source hab,
        shift_other (Ne.symm hac) (Ne.symm hbc), Function.update_self,
        List.take_of_length_le (by rw [List.length_drop]; omega)]
    · rw [shift_other hda hdc, Function.update_of_ne hdc]
      by_cases hdb : d = b
      · rw [hdb, shift_target, Function.update_self]
      · rw [shift_other hda hdb, Function.update_of_ne hdb]

/-! ## Nothing is lost or doubled -/

section Sound

variable [DecidableEq α] {known : List α} {x : α}

/-- Every known good lies in one place, once. -/
structure Sound (k : Bank ι α) (known : List α) : Prop where
  one : ∀ x ∈ known, ∃ a, ∀ b, (k b).count x = if b = a then 1 else 0
  none : ∀ x, x ∉ known → ∀ b, x ∉ k b

theorem Sound.mem_known (h : Sound k known) (hx : x ∈ k a) : x ∈ known := by
  by_contra hk
  exact h.none x hk a hx

theorem Sound.count_self (h : Sound k known) (hx : x ∈ k a) (b : ι) :
    (k b).count x = if b = a then 1 else 0 := by
  obtain ⟨c, hc⟩ := h.one x (h.mem_known hx)
  have hpos : 0 < (k a).count x := List.count_pos_iff.mpr hx
  have hac : a = c := by
    by_contra hac
    rw [hc a, if_neg hac] at hpos
    omega
  rw [hac]
  exact hc b

theorem Sound.place_unique (h : Sound k known) (ha : x ∈ k a) (hb : x ∈ k b) :
    b = a := by
  have hcount := h.count_self ha b
  have hpos : 0 < (k b).count x := List.count_pos_iff.mpr hb
  by_contra hba
  rw [hcount, if_neg hba] at hpos
  omega

theorem count_take_add_drop (l : List α) (n : Nat) (x : α) :
    (l.take n).count x + (l.drop n).count x = l.count x := by
  rw [← List.count_append, List.take_append_drop]

/-- A good that is carried lies in the target, and the others stay. -/
theorem Sound.shift (h : Sound k known) (hab : a ≠ b) :
    Sound (k.shift a b n) known := by
  have hsum := count_take_add_drop (k a) n
  refine ⟨fun x hx => ?_, fun x hx c => ?_⟩
  · obtain ⟨c, hc⟩ := h.one x hx
    by_cases htaken : x ∈ (k a).take n
    · have hca : c = a := h.place_unique (List.mem_of_mem_take htaken)
        (List.count_pos_iff.mp (by rw [hc c, if_pos rfl]; omega))
      have hpos : 0 < ((k a).take n).count x := List.count_pos_iff.mpr htaken
      have hsrc := hc a
      rw [if_pos hca.symm, ← hsum x] at hsrc
      refine ⟨b, fun d => ?_⟩
      by_cases hdb : d = b
      · have htgt := hc b
        rw [if_neg (by rw [hca]; exact Ne.symm hab)] at htgt
        rw [hdb, shift_target, List.count_append, htgt, if_pos rfl]
        omega
      · rw [if_neg hdb]
        by_cases hda : d = a
        · rw [hda, shift_source hab]
          omega
        · rw [shift_other hda hdb, hc d, if_neg (by rw [hca]; exact hda)]
    · have hzero : ((k a).take n).count x = 0 := List.count_eq_zero.mpr htaken
      refine ⟨c, fun d => ?_⟩
      rw [← hc d]
      by_cases hdb : d = b
      · rw [hdb, shift_target, List.count_append, hzero, Nat.add_zero]
      · by_cases hda : d = a
        · rw [hda, shift_source hab, ← hsum x, hzero, Nat.zero_add]
        · rw [shift_other hda hdb]
  · intro hmem
    rcases mem_shift hab hmem with hmem | ⟨-, hmem⟩
    · exact h.none x hx c hmem
    · exact h.none x hx a (List.mem_of_mem_take hmem)

theorem Sound.arrive (h : Sound k known) (hnodup : xs.Nodup)
    (hfresh : ∀ x ∈ xs, x ∉ known) :
    Sound (k.arrive a xs) (known ++ xs) := by
  refine ⟨fun x hx => ?_, fun x hx c => ?_⟩
  · by_cases hnew : x ∈ xs
    · have hnone : ∀ c, (k c).count x = 0 := fun c =>
        List.count_eq_zero.mpr (h.none x (hfresh x hnew) c)
      refine ⟨a, fun c => ?_⟩
      by_cases hca : c = a
      · rw [hca, arrive_self, List.count_append, hnone,
          List.count_eq_one_of_mem hnodup hnew, if_pos rfl]
      · rw [arrive_other hca, hnone, if_neg hca]
    · obtain ⟨b, hb⟩ := h.one x ((List.mem_append.mp hx).resolve_right hnew)
      refine ⟨b, fun c => ?_⟩
      rw [← hb c]
      by_cases hca : c = a
      · rw [hca, arrive_self, List.count_append, List.count_eq_zero.mpr hnew,
          Nat.add_zero]
      · rw [arrive_other hca]
  · rw [List.mem_append, not_or] at hx
    by_cases hca : c = a
    · rw [hca, arrive_self, List.mem_append, not_or]
      exact ⟨h.none x hx.1 a, hx.2⟩
    · rw [arrive_other hca]
      exact h.none x hx.1 c

end Sound

/-! ## Places in series -/

/-- Goods carried to the stage before are as far along as they were. -/
theorem flow_shift_adjacent (hnodup : (pre ++ b :: a :: post).Nodup) :
    flow (pre ++ b :: a :: post) φ (k.shift a b n) =
      flow (pre ++ b :: a :: post) φ k := by
  obtain ⟨-, hrest, hdisj⟩ := List.nodup_append.mp hnodup
  obtain ⟨hb, hrest⟩ := List.nodup_cons.mp hrest
  obtain ⟨ha, -⟩ := List.nodup_cons.mp hrest
  have hab : a ≠ b := fun heq => hb (heq ▸ List.mem_cons_self)
  have hpre : flow pre φ (k.shift a b n) = flow pre φ k :=
    flow_congr fun c hc => by
    rw [shift_other (hdisj c hc a (by simp)) (hdisj c hc b (by simp))]
  have hpost : flow post φ (k.shift a b n) = flow post φ k :=
    flow_congr fun c hc => by
      have hca : c ≠ a := fun heq => ha (heq ▸ hc)
      have hcb : c ≠ b := fun heq => hb (heq ▸ List.mem_cons_of_mem a hc)
      rw [shift_other hca hcb]
  simp only [flow_append, flow_cons, hpre, hpost]
  rw [shift_target, shift_source hab, List.filter_append, List.append_assoc,
    ← List.append_assoc (((k a).take n).filter φ), ← List.filter_append,
    List.take_append_drop]

/-- Goods that `φ` does not care about may go anywhere. -/
theorem flow_shift_invisible (hab : a ≠ b)
    (h : ((k a).take n).filter φ = []) :
    flow stages φ (k.shift a b n) = flow stages φ k := by
  refine flow_congr fun c _ => ?_
  by_cases hcb : c = b
  · rw [hcb, shift_target, List.filter_append, h, List.append_nil]
  · by_cases hca : c = a
    · have hsplit : ((k a).take n ++ (k a).drop n).filter φ =
          (k a).filter φ := by
        rw [List.take_append_drop]
      rw [List.filter_append, h, List.nil_append] at hsplit
      rw [hca, shift_source hab, hsplit]
    · rw [shift_other hca hcb]

/-- Goods that leave the series are missing from it, and only they. -/
theorem flow_shift_out (hab : a ≠ b) (hb : b ∉ stages) :
    (flow stages φ (k.shift a b n)).Sublist (flow stages φ k) := by
  refine flow_sublist fun c hc => ?_
  have hcb : c ≠ b := fun heq => hb (heq ▸ hc)
  by_cases hca : c = a
  · rw [hca, shift_source hab]
    exact (List.drop_sublist n (k a)).filter φ
  · rw [shift_other hca hcb]

theorem flow_shift_outside (ha : a ∉ stages) (hb : b ∉ stages) :
    flow stages φ (k.shift a b n) = flow stages φ k := by
  refine flow_congr fun c hc => ?_
  have hca : c ≠ a := fun heq => ha (heq ▸ hc)
  have hcb : c ≠ b := fun heq => hb (heq ▸ hc)
  rw [shift_other hca hcb]

/-- An arrival at the last stage. -/
theorem flow_arrive_last (ha : a ∉ pre) :
    flow (pre ++ [a]) φ (k.arrive a xs) =
      flow (pre ++ [a]) φ k ++ xs.filter φ := by
  have hpre : flow pre φ (k.arrive a xs) = flow pre φ k :=
    flow_congr fun c hc => by
    have hca : c ≠ a := fun heq => ha (heq ▸ hc)
    rw [arrive_other hca]
  rw [flow_append, flow_append, hpre, List.append_assoc]
  simp only [flow, List.flatMap_cons, List.flatMap_nil, List.append_nil]
  rw [arrive_self, List.filter_append]

end Bank

end GhostDataplane.Lib
