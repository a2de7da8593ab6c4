import GhostDataplane.Lib.Lpm

/-!
# A table that several hands fill

Several hands add the same list of rules to one table, each in the order of the
list, and one rule at a time. What the table holds in between depends on whose
turn it was. `Filling rules t busy` says what does not: every entry is that of a
rule of the list, and an entry that is not yet what the list as a whole makes of
it will be overwritten, because some hand has not come to the last rule for it.
`busy k` says that a hand is about to add the rule with index `k`.

A new table that one hand begins with is being filled (`Filling.empty`), adding
a rule keeps it so (`Filling.add`), and when no hand is busy any more the table
is the one that a single hand would have made (`Filling.done`).
-/

namespace GhostDataplane.Lib.Lpm

variable {α : Type} {width : Nat} {rules : List (Rule α)} {t : Lpm α}
  {busy busy' : Nat → Prop}

/-- The table has entries of the rules only, and what is missing is still to
come. -/
structure Filling (width : Nat) (rules : List (Rule α)) (t : Lpm α)
    (busy : Nat → Prop) : Prop where
  sound : ∀ {d p hop}, t d p = some hop →
    ∃ r ∈ rules, r.At width d p ∧ r.hop = hop
  last : ∀ {pre r post d p}, rules = pre ++ r :: post → r.At width d p →
    (∀ q ∈ post, ¬ q.At width d p) →
    t d p = some r.hop ∨ ∃ k ≤ pre.length, busy k

theorem Filling.empty (h : busy 0) : Filling width rules Lpm.empty busy where
  sound hhop := by cases hhop
  last _ _ _ := .inr ⟨0, Nat.zero_le _, h⟩

/-- A hand that is through with the list, or was not at work, may do as it
likes. -/
theorem Filling.mono (h : Filling width rules t busy)
    (hb : ∀ k < rules.length, busy k → busy' k) :
    Filling width rules t busy' where
  sound := h.sound
  last := by
    intro pre r post d p hrules hat hpost
    refine (h.last hrules hat hpost).imp_right ?_
    rintro ⟨k, hk, hbusy⟩
    refine ⟨k, hk, hb k ?_ hbusy⟩
    rw [hrules, List.length_append, List.length_cons]
    omega

theorem add_of_at {r : Rule α} {d p : Nat} (h : r.At width d p) :
    add width t r.addr r.depth r.hop d p = some r.hop := by
  obtain ⟨rfl, hp⟩ := h
  exact if_pos ⟨rfl, hp.symm⟩

theorem add_of_not_at {r : Rule α} {d p : Nat} (h : ¬ r.At width d p) :
    add width t r.addr r.depth r.hop d p = t d p := by
  refine if_neg fun heq => h ?_
  obtain ⟨rfl, hp⟩ := heq
  exact ⟨rfl, hp.symm⟩

/-- A hand adds the rule that it has come to. -/
theorem Filling.add {r : Rule α} {idx : Nat} (h : Filling width rules t busy)
    (hr : rules[idx]? = some r) (hrest : ∀ k, busy k → k ≠ idx → busy' k)
    (hnext : busy' (idx + 1)) :
    Filling width rules (add width t r.addr r.depth r.hop) busy' where
  sound := by
    intro d p hop hhop
    by_cases hat : r.At width d p
    · rw [add_of_at hat] at hhop
      cases hhop
      exact ⟨r, List.mem_of_getElem? hr, hat, rfl⟩
    · rw [add_of_not_at hat] at hhop
      exact h.sound hhop
  last := by
    intro pre q post d p hrules hq hpost
    have hidx : rules[pre.length]? = some q := by
      rw [hrules, List.getElem?_append_right (Nat.le_refl _), Nat.sub_self]
      rfl
    by_cases hat : r.At width d p
    · rw [add_of_at hat]
      by_cases hle : idx < pre.length
      · exact .inr ⟨idx + 1, hle, hnext⟩
      · by_cases heq : idx = pre.length
        · rw [heq, hidx] at hr
          cases hr
          exact .inl rfl
        · -- A rule behind the last one for the entry.
          have hmem : r ∈ post := by
            rw [hrules, List.getElem?_append_right (by omega)] at hr
            obtain ⟨k, hk⟩ : ∃ k, idx - pre.length = k + 1 :=
              ⟨idx - pre.length - 1, by omega⟩
            rw [hk] at hr
            exact List.mem_of_getElem? (show post[k]? = some r from hr)
          exact absurd hat (hpost r hmem)
    · rw [add_of_not_at hat]
      refine (h.last hrules hq hpost).imp_right ?_
      rintro ⟨k, hk, hbusy⟩
      by_cases heq : k = idx
      · have hne : idx ≠ pre.length := by
          intro hidx'
          rw [hidx', hidx] at hr
          cases hr
          exact hat hq
        exact ⟨idx + 1, by omega, hnext⟩
      · exact ⟨k, hk, hrest k hbusy heq⟩

/-- Of the rules for an entry there is a last one. -/
theorem exists_last {d p : Nat} (h : ∃ r ∈ rules, r.At width d p) :
    ∃ pre r post, rules = pre ++ r :: post ∧ r.At width d p ∧
      ∀ q ∈ post, ¬ q.At width d p := by
  induction rules with
  | nil =>
      obtain ⟨r, hr, -⟩ := h
      cases hr
  | cons r rules ih =>
      by_cases hrest : ∃ q ∈ rules, q.At width d p
      · obtain ⟨pre, q, post, rfl, hq, hpost⟩ := ih hrest
        exact ⟨r :: pre, q, post, rfl, hq, hpost⟩
      · obtain ⟨q, hq, hat⟩ := h
        rcases List.mem_cons.mp hq with rfl | hq
        · exact ⟨[], q, rules, rfl, hat,
            fun q' hq' hat' => hrest ⟨q', hq', hat'⟩⟩
        · exact absurd ⟨q, hq, hat⟩ hrest

/-- When every hand is through with the list, the table is what the list
makes. -/
theorem Filling.done (h : Filling width rules t busy)
    (hdone : ∀ k < rules.length, ¬ busy k) :
    t = addAll width Lpm.empty rules := by
  funext d p
  by_cases hat : ∃ r ∈ rules, r.At width d p
  · obtain ⟨pre, r, post, rfl, hr, hpost⟩ := exists_last hat
    rw [addAll_of_at hr hpost]
    rcases h.last rfl hr hpost with heq | ⟨k, hk, hbusy⟩
    · exact heq
    · exact absurd hbusy (hdone k (by simp; omega))
  · have hnone : ∀ r ∈ rules, ¬ r.At width d p :=
      fun r hr hr' => hat ⟨r, hr, hr'⟩
    rw [addAll_of_not_at hnone]
    cases hhop : t d p with
    | none => rfl
    | some hop =>
        obtain ⟨r, hr, hr', -⟩ := h.sound hhop
        exact absurd hr' (hnone r hr)

end GhostDataplane.Lib.Lpm
