import GhostDataplane.Lib.Checked

/-!
# Runs that end well

`m.Returns s Q` is total correctness of a checked computation in one state: it
does not stop at a check, and what it returns and the state it leaves are as
`Q` says. The rules go forwards through a program, one for each way of putting
computations together; a proof names what holds between two steps and never
looks at how the monad passes the state on.

The loop here is the one that keeps its variables in the accumulator. A turn
says whether to go around again or what the result is, and the fuel stops a
loop that does not end. With an invariant and a variant the fuel is never the
reason: `returns_loop` is the rule, and `Q` has to follow only where a turn
leaves the loop.
-/

namespace GhostDataplane.Lib

/-- What a turn of a loop comes to. -/
inductive Turn (α β : Type) where
  /-- Around again, with new values of the variables. -/
  | again (a : α)
  /-- The loop is over. -/
  | done (b : β)

namespace Checked

variable {σ ε α β : Type}

/-- Turns until one leaves the loop; `e` if there are more than the fuel
allows. -/
def loop (e : ε) (turn : α → Checked σ ε (Turn α β)) : Nat → α → Checked σ ε β
  | 0, _ => throw e
  | fuel + 1, a => do
      match ← turn a with
      | .again a' => loop e turn fuel a'
      | .done b => pure b

/-- The computation does not stop, and its result is as `Q` says. -/
def Returns (m : Checked σ ε α) (s : σ) (Q : α → σ → Prop) : Prop :=
  ∃ a s', m s = .ok (a, s') ∧ Q a s'

section Rules

variable {m : Checked σ ε α} {f : α → Checked σ ε β} {s : σ}
  {P : α → σ → Prop} {Q : β → σ → Prop}

theorem Returns.mono {P' : α → σ → Prop} (h : m.Returns s P)
    (hp : ∀ a s', P a s' → P' a s') : m.Returns s P' := by
  obtain ⟨a, s', hm, ha⟩ := h
  exact ⟨a, s', hm, hp a s' ha⟩

theorem returns_pure {a : α} (h : P a s) :
    (pure a : Checked σ ε α).Returns s P := ⟨a, s, rfl, h⟩

theorem Returns.bind (h : m.Returns s P)
    (hf : ∀ a s', P a s' → (f a).Returns s' Q) : (m >>= f).Returns s Q := by
  obtain ⟨a, s', hm, ha⟩ := h
  obtain ⟨b, s'', hb, hq⟩ := hf a s' ha
  exact ⟨b, s'', by rw [bind_eq hm, hb], hq⟩

/-- A first step with a known outcome. -/
theorem Returns.step {a : α} {s' : σ} (h : m s = .ok (a, s'))
    (hf : (f a).Returns s' Q) : (m >>= f).Returns s Q := by
  rw [Returns, bind_eq h]
  exact hf

theorem returns_get_bind {f : σ → Checked σ ε β} (h : (f s).Returns s Q) :
    ((get : Checked σ ε σ) >>= f).Returns s Q := h

theorem returns_modify_bind {g : σ → σ} {f : Unit → Checked σ ε β}
    (h : (f ()).Returns (g s) Q) :
    ((modify g : Checked σ ε Unit) >>= f).Returns s Q := h

theorem returns_modify {g : σ → σ} {P : Unit → σ → Prop} (h : P () (g s)) :
    (modify g : Checked σ ε Unit).Returns s P := ⟨(), g s, rfl, h⟩

end Rules

section Loop

variable {I : α → σ → Prop} {variant : α → σ → Nat} {Q : β → σ → Prop} {n : Nat}
  {s : σ}

/-- What a turn has to bring about that begins with the variant at `n`: the
invariant and a smaller variant if the loop goes on, `Q` if it does not. -/
def TurnPost (I : α → σ → Prop) (variant : α → σ → Nat) (Q : β → σ → Prop)
    (n : Nat) : Turn α β → σ → Prop
  | .again a, s => I a s ∧ variant a s < n
  | .done b, s => Q b s

theorem returns_again {a : α} (hi : I a s) (hv : variant a s < n) :
    (pure (.again a) : Checked σ ε (Turn α β)).Returns s
      (TurnPost I variant Q n) :=
  returns_pure ⟨hi, hv⟩

theorem returns_done {b : β} (hq : Q b s) :
    (pure (.done b) : Checked σ ε (Turn α β)).Returns s
      (TurnPost I variant Q n) :=
  returns_pure hq

/-- An invariant that each turn keeps, and a variant that it brings down
unless it is the last. -/
theorem returns_loop {e : ε} {turn : α → Checked σ ε (Turn α β)}
    (I : α → σ → Prop) (variant : α → σ → Nat) {Q : β → σ → Prop}
    (hturn : ∀ a s, I a s →
      (turn a).Returns s (TurnPost I variant Q (variant a s)))
    {fuel : Nat} {a : α} {s : σ} (hi : I a s) (hfuel : variant a s < fuel) :
    (loop e turn fuel a).Returns s Q := by
  induction fuel generalizing a s with
  | zero => exact absurd hfuel (Nat.not_lt_zero _)
  | succ fuel ih =>
      refine (hturn a s hi).bind fun r s' hr => ?_
      cases r with
      | again a' =>
          exact ih hr.1 (Nat.lt_of_lt_of_le hr.2 (Nat.le_of_lt_succ hfuel))
      | done b => exact returns_pure hr

end Loop

end Checked

end GhostDataplane.Lib
