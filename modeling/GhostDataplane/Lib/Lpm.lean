import Mathlib.Logic.Function.Basic

/-!
# Longest-prefix match

A table of prefixes holds at most one value for each depth and each string of
that many leading bits. `add` writes one entry, over the one that was there,
and `lookup` tries the depths from the width of an address down to one.

`IsBest` says what a lookup is for, in terms of the list of rules a table was
filled with: of the rules that match the address it is one of the longest,
and the last of those. Where a rule matches there is a best one
(`exists_isBest`), and the lookup finds it (`addAll_lookup`); where none does
the lookup finds nothing.
-/

namespace GhostDataplane.Lib

/-- A table of prefixes, by depth and leading bits. -/
def Lpm (α : Type) : Type := Nat → Nat → Option α

namespace Lpm

variable {α : Type}

/-- The leading `depth` bits of an address of `width` bits. -/
def lead (width depth addr : Nat) : Nat := addr >>> (width - depth)

def empty : Lpm α := fun _ _ => none

def add (width : Nat) (t : Lpm α) (addr depth : Nat) (hop : α) : Lpm α :=
  fun d p => if d = depth ∧ p = lead width depth addr then some hop else t d p

/-- The longest match of at most `depth` bits. -/
def search (width : Nat) (t : Lpm α) (addr : Nat) : (depth : Nat) → Option α
  | 0 => none
  | d + 1 =>
      match t (d + 1) (lead width (d + 1) addr) with
      | some hop => some hop
      | none => search width t addr d

def lookup (width : Nat) (t : Lpm α) (addr : Nat) : Option α :=
  search width t addr width

/-! ## Rules -/

/-- What `add` is given. -/
structure Rule (α : Type) where
  addr : Nat
  depth : Nat
  hop : α

def Rule.Matches (width : Nat) (r : Rule α) (addr : Nat) : Prop :=
  lead width r.depth addr = lead width r.depth r.addr

/-- The table after the rules were added in their order. -/
def addAll (width : Nat) (t : Lpm α) : List (Rule α) → Lpm α
  | [] => t
  | r :: rules => addAll width (add width t r.addr r.depth r.hop) rules

/-- The rule matches, no rule before it is longer and no rule after it as
long. -/
def IsBest (width : Nat) (rules : List (Rule α)) (addr : Nat) (r : Rule α) :
    Prop :=
  ∃ pre post, rules = pre ++ r :: post ∧ r.Matches width addr ∧
    (∀ q ∈ pre, q.Matches width addr → q.depth ≤ r.depth) ∧
    ∀ q ∈ post, q.Matches width addr → q.depth < r.depth

section

variable {width addr d p : Nat} {t : Lpm α} {rules : List (Rule α)} {hop : α}

/-- The rule is for this entry of the table. -/
def Rule.At (width d p : Nat) (r : Rule α) : Prop :=
  r.depth = d ∧ lead width d r.addr = p

/-- An entry that no rule is for stays as it was. -/
theorem addAll_of_not_at (h : ∀ r ∈ rules, ¬ r.At width d p) :
    addAll width t rules d p = t d p := by
  induction rules generalizing t with
  | nil => rfl
  | cons r rules ih =>
      rw [addAll, ih fun q hq => h q (List.mem_cons_of_mem r hq)]
      refine if_neg fun hd => h r List.mem_cons_self ?_
      obtain ⟨rfl, hp⟩ := hd
      exact ⟨rfl, hp.symm⟩

/-- The last rule for an entry decides it. -/
theorem addAll_of_at {r : Rule α} {pre post : List (Rule α)}
    (hr : r.At width d p) (hpost : ∀ q ∈ post, ¬ q.At width d p) :
    addAll width t (pre ++ r :: post) d p = some r.hop := by
  induction pre generalizing t with
  | nil =>
      rw [List.nil_append, addAll, addAll_of_not_at hpost]
      obtain ⟨rfl, hp⟩ := hr
      exact if_pos ⟨rfl, hp.symm⟩
  | cons q pre ih =>
      rw [List.cons_append, addAll]
      exact ih

theorem search_of_hit {n : Nat} (hpos : 0 < d) (hle : d ≤ n)
    (hhit : t d (lead width d addr) = some hop)
    (hmiss : ∀ e, d < e → e ≤ n → t e (lead width e addr) = none) :
    search width t addr n = some hop := by
  induction n with
  | zero => omega
  | succ n ih =>
      rw [search]
      by_cases hd : d = n + 1
      · subst hd
        rw [hhit]
      · rw [hmiss (n + 1) (by omega) (Nat.le_refl _)]
        exact ih (by omega) fun e hlt hle => hmiss e hlt (by omega)

theorem search_of_miss {n : Nat}
    (hmiss : ∀ e, e ≤ n → t e (lead width e addr) = none) :
    search width t addr n = none := by
  induction n with
  | zero => rfl
  | succ n ih =>
      rw [search, hmiss (n + 1) (Nat.le_refl _)]
      exact ih fun e he => hmiss e (by omega)

/-- A rule for the entry that the address has at some depth matches it. -/
theorem Rule.At.isMatch {r : Rule α} (h : r.At width d (lead width d addr)) :
    r.Matches width addr ∧ r.depth = d := by
  obtain ⟨rfl, hlead⟩ := h
  exact ⟨hlead.symm, rfl⟩

/-- A lookup finds the best rule. -/
theorem addAll_lookup {r : Rule α} (hpos : 0 < r.depth) (hle : r.depth ≤ width)
    (h : IsBest width rules addr r) :
    lookup width (addAll width empty rules) addr = some r.hop := by
  obtain ⟨pre, post, rfl, hmatch, hpre, hpost⟩ := h
  refine search_of_hit hpos hle ?_ fun e hlt _ => ?_
  · refine addAll_of_at ⟨rfl, hmatch.symm⟩ fun q hq hat => ?_
    obtain ⟨hm, hd⟩ := hat.isMatch
    exact absurd (hpost q hq hm) (by omega)
  · refine addAll_of_not_at fun q hq hat => ?_
    obtain ⟨hm, rfl⟩ := hat.isMatch
    rcases List.mem_append.mp hq with hq | hq
    · exact absurd (hpre q hq hm) (by omega)
    · rcases List.mem_cons.mp hq with rfl | hq
      · exact absurd hlt (Nat.lt_irrefl _)
      · exact absurd (hpost q hq hm) (by omega)

/-- A lookup finds nothing if no rule matches. -/
theorem addAll_lookup_none (h : ∀ r ∈ rules, ¬ r.Matches width addr) :
    lookup width (addAll width empty rules) addr = none := by
  refine search_of_miss fun e _ => ?_
  exact addAll_of_not_at fun q hq hat => h q hq hat.isMatch.1

/-- Among rules of which one matches there is a best one. -/
theorem exists_isBest (h : ∃ r ∈ rules, r.Matches width addr) :
    ∃ r, IsBest width rules addr r := by
  induction rules with
  | nil =>
      obtain ⟨r, hr, -⟩ := h
      cases hr
  | cons q rules ih =>
      by_cases hrest : ∃ r ∈ rules, r.Matches width addr
      · obtain ⟨r, pre, post, rfl, hmatch, hpre, hpost⟩ := ih hrest
        by_cases hq : q.Matches width addr ∧ r.depth < q.depth
        · -- The first rule is longer than everything behind it.
          refine ⟨q, [], _, rfl, hq.1, nofun, fun q' hq' hm => ?_⟩
          refine Nat.lt_of_le_of_lt ?_ hq.2
          rcases List.mem_append.mp hq' with hq' | hq'
          · exact hpre q' hq' hm
          · rcases List.mem_cons.mp hq' with rfl | hq'
            · exact Nat.le_refl _
            · exact Nat.le_of_lt (hpost q' hq' hm)
        · refine ⟨r, q :: pre, post, rfl, hmatch, fun q' hq' hm => ?_, hpost⟩
          rcases List.mem_cons.mp hq' with rfl | hq'
          · exact Nat.le_of_not_lt fun hlt => hq ⟨hm, hlt⟩
          · exact hpre q' hq' hm
      · obtain ⟨r, hr, hmatch⟩ := h
        rcases List.mem_cons.mp hr with rfl | hr
        · exact ⟨r, [], rules, rfl, hmatch, nofun,
            fun q' hq' hm => absurd ⟨q', hq', hm⟩ hrest⟩
        · exact absurd ⟨r, hr, hmatch⟩ hrest

theorem IsBest.mem {r : Rule α} (h : IsBest width rules addr r) :
    r ∈ rules ∧ r.Matches width addr := by
  obtain ⟨pre, post, rfl, hmatch, -, -⟩ := h
  exact ⟨List.mem_append_right pre List.mem_cons_self, hmatch⟩

end

end Lpm

end GhostDataplane.Lib
