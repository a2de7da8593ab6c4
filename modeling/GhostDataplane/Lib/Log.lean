import Mathlib.Data.List.Basic

/-!
# Logs that are right entry by entry

A system that only ever appends to a log can be judged by it. `Log.Ok P log`
says that every entry met `P` together with all that had been written before
it, which is a safety property of the run that wrote the log. Appending
checks the new entry and no other.
-/

namespace GhostDataplane.Lib.Log

variable {α : Type}

/-- Every entry is right, given the entries before it. -/
def Ok (P : List α → α → Prop) (log : List α) : Prop :=
  ∀ before e after, log = before ++ e :: after → P before e

theorem ok_nil {P : List α → α → Prop} : Ok P [] := by
  intro before e after h
  simp at h

theorem ok_append_singleton {P : List α → α → Prop} {log : List α} {e : α} :
    Ok P (log ++ [e]) ↔ Ok P log ∧ P log e := by
  constructor
  · intro h
    refine ⟨fun before e' after hlog => ?_, h log e [] rfl⟩
    exact h before e' (after ++ [e]) (by simp [hlog])
  · rintro ⟨hlog, he⟩ before e' after h
    rcases List.eq_nil_or_concat after with rfl | ⟨after', e'', rfl⟩
    · obtain ⟨rfl, hlast⟩ := List.append_inj' h rfl
      cases hlast
      exact he
    · have h' : log ++ [e] = (before ++ e' :: after') ++ [e''] := by
        simpa using h
      exact hlog before e' after' (List.append_inj' h' rfl).1

/-- Entries that are right whatever was written before them. -/
theorem Ok.append {P : List α → α → Prop} {log log' : List α} (h : Ok P log)
    (h' : ∀ e ∈ log', ∀ before, P before e) : Ok P (log ++ log') := by
  induction log' generalizing log with
  | nil => simpa using h
  | cons e log' ih =>
      rw [List.append_cons]
      exact ih (ok_append_singleton.mpr ⟨h, h' e List.mem_cons_self log⟩)
        fun e' he' => h' e' (List.mem_cons_of_mem e he')

end GhostDataplane.Lib.Log
