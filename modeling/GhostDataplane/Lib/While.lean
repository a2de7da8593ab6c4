import Mathlib.Logic.Basic

/-!
# Loops that may go on for ever

The head of a loop such as `while ((p = next()) != NULL)` does the work and the
test in one: a turn finds that nothing is left, or leaves a new state.
`whileLoop` takes turns until there are none or the limit is reached, and an
answer is one that the loop itself would give.

There are three rules. `AtHead` collects the states at the head of the loop,
whether it ends or not, and what a turn preserves holds in all of them; the
state in which it ends is one of them. A loop with a variant ends, in a state
where the invariant holds and there is no turn to take. A loop that always has
another turn never does, whatever the limit.
-/

namespace GhostDataplane.Lib

section While

variable {σ : Type} {turn : σ → Option σ} {I : σ → Prop} {s s₁ s' : σ}

/-- The state in which the loop ends, if that takes fewer turns than the
limit. -/
def whileLoop (turn : σ → Option σ) : Nat → σ → Option σ
  | 0, _ => none
  | limit + 1, s =>
      match turn s with
      | none => some s
      | some s' => whileLoop turn limit s'

/-- The states at the head of the loop when it begins with `s`. -/
inductive AtHead (turn : σ → Option σ) (s : σ) : σ → Prop where
  | start : AtHead turn s s
  | next {s₁ s₂ : σ} (h : AtHead turn s s₁) (ht : turn s₁ = some s₂) :
      AtHead turn s s₂

theorem AtHead.head (ht : turn s = some s₁) (h : AtHead turn s₁ s') :
    AtHead turn s s' := by
  induction h with
  | start => exact .next .start ht
  | next _ ht' ih => exact .next ih ht'

theorem AtHead.invariant (hstep : ∀ s s', I s → turn s = some s' → I s')
    (h : AtHead turn s s') (hi : I s) : I s' := by
  induction h with
  | start => exact hi
  | next _ ht ih => exact hstep _ _ ih ht

theorem whileLoop_atHead {limit : Nat} (h : whileLoop turn limit s = some s') :
    AtHead turn s s' := by
  induction limit generalizing s with
  | zero => cases h
  | succ limit ih =>
      rw [whileLoop] at h
      split at h
      · cases h
        exact .start
      · next ht => exact (ih h).head ht

theorem whileLoop_variant (variant : σ → Nat)
    (hstep : ∀ s s', I s → turn s = some s' → I s' ∧ variant s' < variant s)
    {limit : Nat} (hi : I s) (hlimit : variant s < limit) :
    ∃ s', whileLoop turn limit s = some s' ∧ I s' ∧ turn s' = none := by
  induction limit generalizing s with
  | zero => exact absurd hlimit (Nat.not_lt_zero _)
  | succ limit ih =>
      rw [whileLoop]
      cases ht : turn s with
      | none => exact ⟨s, rfl, hi, ht⟩
      | some s₁ =>
          obtain ⟨hi₁, hlt⟩ := hstep s s₁ hi ht
          exact ih hi₁ (Nat.lt_of_lt_of_le hlt (Nat.le_of_lt_succ hlimit))

theorem whileLoop_endless (hstep : ∀ s, I s → ∃ s', turn s = some s' ∧ I s')
    (hi : I s) (limit : Nat) : whileLoop turn limit s = none := by
  induction limit generalizing s with
  | zero => rfl
  | succ limit ih =>
      obtain ⟨s₁, ht, hi₁⟩ := hstep s hi
      rw [whileLoop, ht]
      exact ih hi₁

end While

end GhostDataplane.Lib
