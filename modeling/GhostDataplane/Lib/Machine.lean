import Mathlib.Logic.Basic

/-!
# Runs of a step relation

A system is a set of starting states and a relation between a state, an
action and the next state. `Machine.Reach ok` collects the states a run can
come to when each of its steps meets the side condition `ok`; the condition
reads the state before the step and the action, so one system serves a
statement about all its runs and one about the runs that keep to a promise.

`Reach.invariant` is the induction every safety argument uses, and
`Reach.mono` says a run that kept a stronger promise kept the weaker one.
-/

namespace GhostDataplane.Lib

/-- A labelled transition system. -/
structure Machine (σ α : Type) where
  init : σ → Prop
  step : σ → α → σ → Prop

namespace Machine

variable {σ α : Type}

/-- The states of the runs all of whose steps meet `ok`. -/
inductive Reach (M : Machine σ α) (ok : σ → α → Prop) : σ → Prop where
  | init {s : σ} (h : M.init s) : Reach M ok s
  | step {s s' : σ} {a : α} (hr : Reach M ok s) (hok : ok s a)
      (hs : M.step s a s') : Reach M ok s'

/-- What holds at the start and survives every permitted step holds
throughout. The step may use that its source was reached. -/
theorem Reach.invariant {M : Machine σ α} {ok : σ → α → Prop}
    {I : σ → Prop} (hinit : ∀ s, M.init s → I s)
    (hstep : ∀ s a s', M.Reach ok s → I s → ok s a → M.step s a s' → I s')
    {s : σ} (h : M.Reach ok s) : I s := by
  induction h with
  | init h => exact hinit _ h
  | step hr hok hs ih => exact hstep _ _ _ hr ih hok hs

theorem Reach.mono {M : Machine σ α} {ok ok' : σ → α → Prop}
    (hle : ∀ s a, ok s a → ok' s a) {s : σ} (h : M.Reach ok s) :
    M.Reach ok' s := by
  induction h with
  | init h => exact .init h
  | step _ hok hs ih => exact .step ih (hle _ _ hok) hs

end Machine

end GhostDataplane.Lib
