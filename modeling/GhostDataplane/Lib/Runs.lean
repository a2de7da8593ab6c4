import GhostDataplane.Lib.Machine
import Mathlib.Data.List.Basic

/-!
# Runs with their actions

`Machine.Reach` forgets how a state was come to. `Machine.Steps` keeps the
actions of a run from one state to another, so that a statement can count them:
how many steps a thread has had, or in how many rounds each thread had enough of
them.

Two rules of progress are proved here once. `Steps.rank_le` is for a thread that
comes closer to its end with each step of its own, whatever the others do.
`Steps.lowers` is for a measure of the whole system that a thread is about to
lower: the thread may need a number of steps for it, the others do not get in
its way, and if one of them lowers the measure first that is just as well.
`Rounds.lowers` repeats such a round until there is nothing left. Which thread a
round owes a step may depend on where the round begins.
-/

namespace GhostDataplane.Lib

namespace Machine

variable {σ α : Type}

/-- A run from one state to another, all of whose steps meet `ok`. -/
inductive Steps (M : Machine σ α) (ok : σ → α → Prop) :
    σ → List α → σ → Prop where
  | nil {s : σ} : Steps M ok s [] s
  | cons {s s₁ s' : σ} {a : α} {actions : List α} (hok : ok s a)
      (hs : M.step s a s₁) (hrest : Steps M ok s₁ actions s') :
      Steps M ok s (a :: actions) s'

variable {M : Machine σ α} {ok : σ → α → Prop} {s s' : σ} {actions : List α}
  {I : σ → Prop}

theorem Steps.split {first rest : List α}
    (h : M.Steps ok s (first ++ rest) s') :
    ∃ s₁, M.Steps ok s first s₁ ∧ M.Steps ok s₁ rest s' := by
  induction first generalizing s with
  | nil => exact ⟨s, .nil, h⟩
  | cons a first ih =>
      cases h with
      | cons hok hs hrest =>
          obtain ⟨s₁, hfirst, hrest⟩ := ih hrest
          exact ⟨s₁, .cons hok hs hfirst, hrest⟩

theorem Steps.reach (h : M.Steps ok s actions s') (hr : M.Reach ok s) :
    M.Reach ok s' := by
  induction h with
  | nil => exact hr
  | cons hok hs _ ih => exact ih (.step hr hok hs)

/-- What every step preserves, a run preserves. -/
theorem Steps.invariant (h : M.Steps ok s actions s') (hI : I s)
    (hstep : ∀ s a s', I s → ok s a → M.step s a s' → I s') : I s' := by
  induction h with
  | nil => exact hI
  | cons hok hs _ ih => exact ih (hstep _ _ _ hI hok hs)

/-- A rank that each step of its owner lowers, and none raises. -/
theorem Steps.rank_le (rank : σ → Nat) (own : α → Bool)
    (h : M.Steps ok s actions s') (hI : I s)
    (hstep : ∀ s a s', I s → ok s a → M.step s a s' →
      I s' ∧ rank s' ≤ rank s - (if own a then 1 else 0)) :
    rank s' ≤ rank s - actions.countP own := by
  induction h with
  | nil => exact Nat.le_refl _
  | @cons s s₁ s' a actions hok hs _ ih =>
      obtain ⟨hI₁, hrank⟩ := hstep _ _ _ hI hok hs
      have hrest := ih hI₁
      rw [List.countP_cons]
      omega

/-- A thread that is about to lower a measure, and has enough steps for it. -/
theorem Steps.lowers (measure rank : σ → Nat) (own : α → Bool)
    (helps : σ → Prop) (h : M.Steps ok s actions s') (hI : I s)
    (hstep : ∀ s a s', I s → ok s a → M.step s a s' → I s' ∧
      measure s' ≤ measure s ∧
      (helps s → measure s' < measure s ∨
        helps s' ∧ rank s' + (if own a then 1 else 0) ≤ rank s))
    (hhelps : helps s) (hcount : rank s < actions.countP own) :
    measure s' < measure s := by
  induction h with
  | nil => exact absurd hcount (Nat.not_lt_zero _)
  | @cons s s₁ s' a actions hok hs hrest ih =>
      obtain ⟨hI₁, -, hprogress⟩ := hstep _ _ _ hI hok hs
      rcases hprogress hhelps with hlower | ⟨hhelps₁, hrank⟩
      · -- From here on it is enough that nothing raises the measure.
        have hle : measure s' ≤ measure s₁ := by
          refine (hrest.invariant (I := fun t => I t ∧ measure t ≤ measure s₁)
            ⟨hI₁, Nat.le_refl _⟩ fun t a t' ht hok hs => ?_).2
          obtain ⟨hI', hle', -⟩ := hstep t a t' ht.1 hok hs
          exact ⟨hI', Nat.le_trans hle' ht.2⟩
        omega
      · rw [List.countP_cons] at hcount
        have hle := (hstep _ _ _ hI hok hs).2.1
        have hlt := ih hI₁ hhelps₁ (by omega)
        omega

/-- A run in rounds. What a round has to do may depend on the state in which it
begins. -/
inductive Rounds (M : Machine σ α) (ok : σ → α → Prop)
    (round : σ → List α → Prop) : Nat → σ → σ → Prop where
  | nil {s : σ} : Rounds M ok round 0 s s
  | cons {n : Nat} {s s₁ s' : σ} {actions : List α} (hround : round s actions)
      (hs : M.Steps ok s actions s₁) (hrest : Rounds M ok round n s₁ s') :
      Rounds M ok round (n + 1) s s'

variable {n : Nat} {round : σ → List α → Prop}

/-- A run that is cut into rounds. -/
theorem Steps.rounds {rounds : List (List α)}
    (h : M.Steps ok s rounds.flatten s')
    (hrounds : ∀ r ∈ rounds, ∀ s, round s r) :
    M.Rounds ok round rounds.length s s' := by
  induction rounds generalizing s with
  | nil =>
      cases h
      exact .nil
  | cons r rounds ih =>
      obtain ⟨s₁, hfirst, hrest⟩ := h.split
      obtain ⟨hr, hrounds⟩ := List.forall_mem_cons.mp hrounds
      exact .cons (hr s) hfirst (ih hrest hrounds)

theorem Rounds.invariant (h : M.Rounds ok round n s s') (hI : I s)
    (hstep : ∀ s a s', I s → ok s a → M.step s a s' → I s') : I s' := by
  induction h with
  | nil => exact hI
  | cons _ hs _ ih => exact ih (hs.invariant hI hstep)

/-- Rounds that lower a measure as long as there is something to lower. -/
theorem Rounds.lowers {measure : σ → Nat} (h : M.Rounds ok round n s s')
    (hI : I s)
    (hround : ∀ s actions s', I s → M.Steps ok s actions s' → round s actions →
      I s' ∧ (measure s' < measure s ∨ measure s' = 0))
    (hn : measure s ≤ n) : measure s' = 0 := by
  induction h with
  | nil => exact Nat.le_zero.mp hn
  | cons hr hs _ ih =>
      obtain ⟨hI₁, hmeasure⟩ := hround _ _ _ hI hs hr
      exact ih hI₁ (by omega)

end Machine

end GhostDataplane.Lib
