import Mathlib.Data.List.Nodup
import Mathlib.Logic.Relation

/-!
# Waiting in line

A line is a list of those who wait, the next to be served first, with the list
of those who have been served so far. Someone may join it at any place, and the
one in front is served. Who leaves it unserved is up to the system, so a step
says who may not.

However the others come and go, two who stay in the line do not change places:
the one behind is not served until the one ahead has been. `Line.order` says so
for a sequence of steps in which neither of the two is taken out.
-/

namespace GhostDataplane.Lib

/-- Those who were served, oldest first, and those who wait, the next first. -/
structure Line (α : Type) where
  served : List α
  waiting : List α

namespace Line

variable {α : Type} [DecidableEq α]

/-- One change to a line, in which those that `stays` names are not taken
out. -/
inductive Step (stays : α → Prop) : Line α → Line α → Prop where
  | join {served front back : List α} {x : α} :
      Step stays ⟨served, front ++ back⟩ ⟨served, front ++ x :: back⟩
  | leave {served waiting : List α} {x : α} (hx : ¬ stays x) :
      Step stays ⟨served, waiting⟩ ⟨served, waiting.erase x⟩
  | serve {served waiting : List α} {x : α} (hx : x ∉ waiting) :
      Step stays ⟨served, x :: waiting⟩ ⟨served ++ [x], waiting⟩

/-- A sequence of changes. -/
abbrev Steps (stays : α → Prop) : Line α → Line α → Prop :=
  Relation.ReflTransGen (Step stays)

variable {stays : α → Prop} {l l' : Line α} {t u : α}

theorem Steps.mono {stays' : α → Prop} (hle : ∀ x, stays x → stays' x)
    (h : Steps stays' l l') : Steps stays l l' := by
  refine h.lift id fun l l' hstep => ?_
  cases hstep with
  | join => exact .join
  | leave hx => exact .leave fun hs => hx (hle _ hs)
  | serve hx => exact .serve hx

/-- In `xs` nothing is `u` before something is `t`. -/
def First (t u : α) (xs : List α) : Prop :=
  ∀ before after, xs = before ++ u :: after → t ∈ before

omit [DecidableEq α] in
theorem first_nil : First t u [] := by
  intro before after h
  cases before with
  | nil => cases h
  | cons x xs => cases h

omit [DecidableEq α] in
/-- Another one is added at the end: it is not `u`, or `t` came before it. -/
theorem First.concat {xs : List α} {x : α} (h : First t u xs)
    (hx : x ≠ u ∨ t ∈ xs) :
    First t u (xs ++ [x]) := by
  intro before after hsplit
  rcases List.eq_nil_or_concat after with rfl | ⟨after', y, rfl⟩
  · obtain ⟨hxs, hy⟩ := List.append_inj' hsplit rfl
    cases hy
    cases hxs
    exact hx.resolve_left fun hne => hne rfl
  · rw [List.concat_eq_append, ← List.cons_append, ← List.append_assoc]
      at hsplit
    exact h before after' (List.append_inj' hsplit rfl).1

/-- Since the line was `l`: who was served in the meantime, and that `u` is
behind `t` until `t` has been. -/
def Ordered (t u : α) (l l' : Line α) : Prop :=
  ∃ new, l'.served = l.served ++ new ∧ First t u new ∧
    (t ∈ new ∨ [t, u].Sublist l'.waiting)

theorem Ordered.step {l₀ : Line α} (hne : t ≠ u) (ht : stays t) (hu : stays u)
    (h : Ordered t u l₀ l) (hstep : Step stays l l') : Ordered t u l₀ l' := by
  obtain ⟨new, hserved, hfirst, hplace⟩ := h
  cases hstep with
  | @join served front back x =>
      refine ⟨new, hserved, hfirst, hplace.imp_right fun hsub => ?_⟩
      exact hsub.trans ((List.sublist_cons_self x back).append_left front)
  | @leave served waiting x hx =>
      have hxt : t ≠ x := fun he => hx (he ▸ ht)
      have hxu : u ≠ x := fun he => hx (he ▸ hu)
      refine ⟨new, hserved, hfirst, hplace.imp_right fun hsub => ?_⟩
      have herase := hsub.erase x
      rwa [List.erase_cons_tail (by simpa using hxt),
        List.erase_cons_tail (by simpa using hxu)] at herase
  | @serve served waiting x hx =>
      refine ⟨new ++ [x], ?_, ?_, ?_⟩
      · show served ++ [x] = _
        rw [show served = l₀.served ++ new from hserved, List.append_assoc]
      · refine hfirst.concat ?_
        rcases hplace with hmem | hsub
        · exact Or.inr hmem
        · -- Were `u` in front, it would also be behind `t` and wait twice.
          refine Or.inl fun he => hx ?_
          subst he
          cases hsub with
          | cons _ hsub => exact hsub.subset (by simp)
          | cons_cons => exact absurd rfl hne
      · rcases hplace with hmem | hsub
        · exact Or.inl (List.mem_append_left _ hmem)
        · cases hsub with
          | cons _ hsub => exact Or.inr hsub
          | cons_cons => exact Or.inl (by simp)

/-- Two who stay in the line are served in the order in which they stand. -/
theorem order (hne : t ≠ u) (ht : stays t) (hu : stays u) (h : Steps stays l l')
    (hahead : [t, u].Sublist l.waiting) : Ordered t u l l' := by
  induction h with
  | refl => exact ⟨[], (List.append_nil _).symm, first_nil, Or.inr hahead⟩
  | tail _ hstep ih => exact ih.step hne ht hu hstep

end Line

end GhostDataplane.Lib
