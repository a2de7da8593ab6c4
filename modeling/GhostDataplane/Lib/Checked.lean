import Mathlib.Logic.Basic

/-!
# Computations that may stop at a failed check

A program that asserts its assumptions as it goes is a state transformer
with one extra answer: it stops. `Checked σ ε α` is that transformer, a
function from the state to either a value with the new state or the reason
for stopping. Nothing of the state survives a stop, so a run that got past
an operation is a run in which every check of that operation held.

The lemmas below read a successful run backwards. `bind_ok` takes a
sequence apart into its two halves with the state between them, and the
lemma of each primitive says what its success pins down; a proof about a
long operation is then a chain of these and never unfolds the monad. The
lemmas are equivalences, so they also show that a run does not stop.
-/

namespace GhostDataplane.Lib

/-- A computation over a state `σ` that returns an `α` or stops with an `ε`. -/
def Checked (σ ε α : Type) : Type := σ → Except ε (α × σ)

namespace Checked

variable {σ ε α β : Type}

instance : Monad (Checked σ ε) where
  pure a := fun s => .ok (a, s)
  bind m f := fun s =>
    match m s with
    | .ok (a, s') => f a s'
    | .error e => .error e

/-- The current state. -/
def get : Checked σ ε σ := fun s => .ok (s, s)

/-- Replace the state. -/
def modify (f : σ → σ) : Checked σ ε Unit := fun s => .ok ((), f s)

/-- Stop. -/
def throw (e : ε) : Checked σ ε α := fun _ => .error e

/-- Go on if the condition holds, stop otherwise. -/
def check (b : Bool) (e : ε) : Checked σ ε Unit := fun s =>
  if b then .ok ((), s) else .error e

/-! ## Reading a successful run backwards -/

theorem bind_ok {m : Checked σ ε α} {f : α → Checked σ ε β} {s : σ}
    {r : β × σ} :
    (m >>= f) s = .ok r ↔ ∃ a s₁, m s = .ok (a, s₁) ∧ f a s₁ = .ok r := by
  show (match m s with
    | .ok (a, s') => f a s'
    | .error e => .error e) = .ok r ↔ _
  cases hm : m s with
  | error e => simp
  | ok q =>
      obtain ⟨a, s₁⟩ := q
      constructor
      · intro h
        exact ⟨a, s₁, rfl, h⟩
      · rintro ⟨a', s₁', h, hf⟩
        injection h with h
        injection h with ha hs
        subst ha hs
        exact hf

theorem pure_ok {a : α} {s : σ} {r : α × σ} :
    (pure a : Checked σ ε α) s = .ok r ↔ r = (a, s) := by
  show Except.ok (a, s) = .ok r ↔ r = (a, s)
  constructor
  · intro h
    injection h with h
    exact h.symm
  · rintro rfl
    rfl

theorem get_ok {s : σ} {r : σ × σ} :
    (get : Checked σ ε σ) s = .ok r ↔ r = (s, s) := by
  rw [get]
  constructor
  · intro h
    injection h with h
    exact h.symm
  · rintro rfl
    rfl

theorem modify_ok {f : σ → σ} {s : σ} {r : Unit × σ} :
    (modify f : Checked σ ε Unit) s = .ok r ↔ r = ((), f s) := by
  rw [modify]
  constructor
  · intro h
    injection h with h
    exact h.symm
  · rintro rfl
    rfl

theorem throw_ok {e : ε} {s : σ} {r : α × σ} :
    (throw e : Checked σ ε α) s = .ok r ↔ False := by
  rw [throw]
  simp

theorem check_ok {b : Bool} {e : ε} {s : σ} {r : Unit × σ} :
    (check b e : Checked σ ε Unit) s = .ok r ↔ b = true ∧ r = ((), s) := by
  rw [check]
  split
  · next hb =>
      constructor
      · intro h
        injection h with h
        exact ⟨hb, h.symm⟩
      · rintro ⟨-, rfl⟩
        rfl
  · next hb => simp [hb]

/-! ## Sequences that begin with a primitive

The first step of such a sequence returns one value and one state, so the
existentials of `bind_ok` disappear. As equivalences these read a run in both
directions: `simp only` with them strips a successful run down to its checks
and its final state, and builds one up from them. -/

theorem bind_get {f : σ → Checked σ ε β} {s : σ} {r : β × σ} :
    ((get : Checked σ ε σ) >>= f) s = .ok r ↔ f s s = .ok r := by
  rw [bind_ok]
  simp only [get_ok]
  constructor
  · rintro ⟨a, s₁, h, hf⟩
    cases h
    exact hf
  · exact fun h => ⟨s, s, rfl, h⟩

theorem bind_modify {g : σ → σ} {f : Unit → Checked σ ε β} {s : σ}
    {r : β × σ} :
    ((modify g : Checked σ ε Unit) >>= f) s = .ok r ↔ f () (g s) = .ok r := by
  rw [bind_ok]
  simp only [modify_ok]
  constructor
  · rintro ⟨a, s₁, h, hf⟩
    cases h
    exact hf
  · exact fun h => ⟨(), g s, rfl, h⟩

theorem bind_check {b : Bool} {e : ε} {f : Unit → Checked σ ε β} {s : σ}
    {r : β × σ} :
    ((check b e : Checked σ ε Unit) >>= f) s = .ok r ↔
      b = true ∧ f () s = .ok r := by
  rw [bind_ok]
  simp only [check_ok]
  constructor
  · rintro ⟨a, s₁, ⟨hb, h⟩, hf⟩
    cases h
    exact ⟨hb, hf⟩
  · exact fun h => ⟨(), s, ⟨h.1, rfl⟩, h.2⟩

/-! ## Running forwards -/

theorem bind_eq {m : Checked σ ε α} {f : α → Checked σ ε β} {s s₁ : σ} {a : α}
    (h : m s = .ok (a, s₁)) : (m >>= f) s = f a s₁ := by
  show (match m s with
    | .ok (a, s') => f a s'
    | .error e => .error e) = _
  rw [h]

/-- Two computations that come out alike can be followed by the same. -/
theorem bind_left {m m' : Checked σ ε α} {f : α → Checked σ ε β} {s s' : σ}
    (h : m s = m' s') : (m >>= f) s = (m' >>= f) s' := by
  show (match m s with
    | .ok (a, s₁) => f a s₁
    | .error e => .error e) = _
  rw [h]
  rfl

/-- What follows matters only where the first half can lead to. -/
theorem bind_congr {m : Checked σ ε α} {f g : α → Checked σ ε β} {s : σ}
    (h : ∀ a s₁, m s = .ok (a, s₁) → f a s₁ = g a s₁) :
    (m >>= f) s = (m >>= g) s := by
  show (match m s with
    | .ok (a, s') => f a s'
    | .error e => .error e) = (match m s with
    | .ok (a, s') => g a s'
    | .error e => .error e)
  cases hm : m s with
  | error e => rfl
  | ok q => exact h q.1 q.2 hm

theorem get_bind {f : σ → Checked σ ε β} {s : σ} :
    ((get : Checked σ ε σ) >>= f) s = f s s := rfl

theorem modify_bind {g : σ → σ} {f : Unit → Checked σ ε β} {s : σ} :
    ((modify g : Checked σ ε Unit) >>= f) s = f () (g s) := rfl

theorem check_bind {b : Bool} {e : ε} {f : Unit → Checked σ ε β} {s : σ}
    (hb : b = true) : ((check b e : Checked σ ε Unit) >>= f) s = f () s :=
  bind_eq (check_ok.mpr ⟨hb, rfl⟩)

/-! ## Runs that do not stop -/

/-- The computation does not stop in this state. -/
def Succeeds (m : Checked σ ε α) (s : σ) : Prop := ∃ r, m s = .ok r

theorem succeeds_bind {m : Checked σ ε α} {f : α → Checked σ ε β} {s s₁ : σ}
    {a : α} (h : m s = .ok (a, s₁)) :
    (m >>= f).Succeeds s ↔ (f a).Succeeds s₁ := by
  rw [Succeeds, Succeeds, bind_eq h]

/-- A sequence succeeds if its first half does and its second half does
wherever the first can lead. -/
theorem Succeeds.bind {m : Checked σ ε α} {f : α → Checked σ ε β} {s : σ}
    (hm : m.Succeeds s)
    (hf : ∀ a s₁, m s = .ok (a, s₁) → (f a).Succeeds s₁) :
    (m >>= f).Succeeds s := by
  obtain ⟨⟨a, s₁⟩, h⟩ := hm
  exact (succeeds_bind h).mpr (hf a s₁ h)

theorem succeeds_pure {a : α} {s : σ} :
    (pure a : Checked σ ε α).Succeeds s := ⟨_, pure_ok.mpr rfl⟩

theorem succeeds_modify {g : σ → σ} {s : σ} :
    (modify g : Checked σ ε Unit).Succeeds s := ⟨_, modify_ok.mpr rfl⟩

theorem succeeds_bind_get {f : σ → Checked σ ε β} {s : σ} :
    ((get : Checked σ ε σ) >>= f).Succeeds s ↔ (f s).Succeeds s :=
  succeeds_bind (get_ok.mpr rfl)

theorem succeeds_bind_modify {g : σ → σ} {f : Unit → Checked σ ε β} {s : σ} :
    ((modify g : Checked σ ε Unit) >>= f).Succeeds s ↔
      (f ()).Succeeds (g s) := succeeds_bind (modify_ok.mpr rfl)

theorem succeeds_bind_check {b : Bool} {e : ε} {f : Unit → Checked σ ε β}
    {s : σ} (hb : b = true) :
    ((check b e : Checked σ ε Unit) >>= f).Succeeds s ↔
      (f ()).Succeeds s := succeeds_bind (check_ok.mpr ⟨hb, rfl⟩)

/-- Whether the computation does not stop here, and the test holds of what it
returns. -/
def passes (m : Checked σ ε α) (s : σ) (test : α → σ → Bool) : Bool :=
  match m s with
  | .ok (a, s') => test a s'
  | .error _ => false

theorem passes_iff {m : Checked σ ε α} {s : σ} {test : α → σ → Bool} :
    m.passes s test = true ↔ ∃ a s', m s = .ok (a, s') ∧ test a s' = true := by
  unfold passes
  cases m s with
  | error e => simp
  | ok r =>
      constructor
      · intro h
        exact ⟨r.1, r.2, rfl, h⟩
      · rintro ⟨a, s', hr, h⟩
        cases hr
        exact h

/-! ## Runs that do not stop for one reason, and what they add up to

These are about all states. `Avoids e` says that whatever stops the run, it
is not `e`; `Adds f n` says that a run that does not stop leaves a measure of
the state larger by `n`, and `Keeps f` that it leaves whatever `f` reads off
the state as it was. -/

/-- The computation never stops with `e`. -/
def Avoids (e : ε) (m : Checked σ ε α) : Prop := ∀ s, m s ≠ .error e

/-- In one state: the second half need only avoid it where the first half can
lead to. -/
theorem avoids_bind_at {e : ε} {m : Checked σ ε α} {f : α → Checked σ ε β}
    {s : σ} (hm : m s ≠ .error e)
    (hf : ∀ a s₁, m s = .ok (a, s₁) → f a s₁ ≠ .error e) :
    (m >>= f) s ≠ .error e := by
  intro h
  cases hr : m s with
  | error e' =>
      have hstop : (m >>= f) s = .error e' := by
        show (match m s with
          | .ok (a, s') => f a s'
          | .error e => .error e) = _
        rw [hr]
      rw [hstop] at h
      cases h
      exact hm hr
  | ok r =>
      have hgo : (m >>= f) s = f r.1 r.2 := bind_eq hr
      exact hf r.1 r.2 hr (hgo.symm.trans h)

theorem Avoids.bind {e : ε} {m : Checked σ ε α} {f : α → Checked σ ε β}
    (hm : Avoids e m) (hf : ∀ a, Avoids e (f a)) : Avoids e (m >>= f) :=
  fun s => avoids_bind_at (hm s) fun a s₁ _ => hf a s₁

theorem avoids_pure {e : ε} {a : α} : Avoids e (pure a : Checked σ ε α) :=
  fun _ h => by cases h

theorem avoids_get {e : ε} : Avoids e (get : Checked σ ε σ) :=
  fun _ h => by cases h

theorem avoids_modify {e : ε} {g : σ → σ} :
    Avoids e (modify g : Checked σ ε Unit) := fun _ h => by cases h

theorem avoids_throw {e e' : ε} (hne : e' ≠ e) :
    Avoids e (throw e' : Checked σ ε α) := by
  intro s h
  cases h
  exact hne rfl

theorem avoids_check {e e' : ε} {b : Bool} (hne : e' ≠ e) :
    Avoids e (check b e' : Checked σ ε Unit) := by
  intro s h
  unfold check at h
  split at h
  · cases h
  · cases h
    exact hne rfl

/-- The computation adds `n` to the measure `f`. -/
def Adds (f : σ → Nat) (n : Nat) (m : Checked σ ε α) : Prop :=
  ∀ s a s', m s = .ok (a, s') → f s' = f s + n

section Adds

variable {f : σ → Nat} {n : Nat} {m : Checked σ ε α} {g : α → Checked σ ε β}

/-- A first half that adds nothing. -/
theorem Adds.andThen (hm : Adds f 0 m) (hg : ∀ a, Adds f n (g a)) :
    Adds f n (m >>= g) := by
  intro s b s' h
  obtain ⟨a, s₁, h₁, h₂⟩ := bind_ok.mp h
  rw [hg a s₁ b s' h₂, hm s a s₁ h₁, Nat.add_zero]

/-- A second half that adds nothing. -/
theorem Adds.andNothing (hm : Adds f n m) (hg : ∀ a, Adds f 0 (g a)) :
    Adds f n (m >>= g) := by
  intro s b s' h
  obtain ⟨a, s₁, h₁, h₂⟩ := bind_ok.mp h
  rw [hg a s₁ b s' h₂, hm s a s₁ h₁, Nat.add_zero]

theorem adds_pure {a : α} : Adds f 0 (pure a : Checked σ ε α) := by
  intro s b s' h
  cases pure_ok.mp h
  rfl

theorem adds_get : Adds f 0 (get : Checked σ ε σ) := by
  intro s b s' h
  cases get_ok.mp h
  rfl

theorem adds_modify {u : σ → σ} (hu : ∀ s, f (u s) = f s + n) :
    Adds f n (modify u : Checked σ ε Unit) := by
  intro s b s' h
  cases modify_ok.mp h
  exact hu s

theorem adds_throw {e : ε} : Adds f n (throw e : Checked σ ε α) :=
  fun _ _ _ h => (throw_ok.mp h).elim

theorem adds_check {b : Bool} {e : ε} :
    Adds f 0 (check b e : Checked σ ε Unit) := by
  intro s a s' h
  cases (check_ok.mp h).2
  rfl

end Adds

/-- The computation does not change what `f` reads off the state. -/
def Keeps {γ : Type} (f : σ → γ) (m : Checked σ ε α) : Prop :=
  ∀ s a s', m s = .ok (a, s') → f s' = f s

section Keeps

variable {γ : Type} {f : σ → γ} {m : Checked σ ε α} {g : α → Checked σ ε β}

theorem Keeps.bind (hm : Keeps f m) (hg : ∀ a, Keeps f (g a)) :
    Keeps f (m >>= g) := by
  intro s b s' h
  obtain ⟨a, s₁, h₁, h₂⟩ := bind_ok.mp h
  exact (hg a s₁ b s' h₂).trans (hm s a s₁ h₁)

theorem keeps_pure {a : α} : Keeps f (pure a : Checked σ ε α) := by
  intro s b s' h
  cases pure_ok.mp h
  rfl

theorem keeps_get : Keeps f (get : Checked σ ε σ) := by
  intro s b s' h
  cases get_ok.mp h
  rfl

theorem keeps_modify {u : σ → σ} (hu : ∀ s, f (u s) = f s) :
    Keeps f (modify u : Checked σ ε Unit) := by
  intro s b s' h
  cases modify_ok.mp h
  exact hu s

theorem keeps_throw {e : ε} : Keeps f (throw e : Checked σ ε α) :=
  fun _ _ _ h => (throw_ok.mp h).elim

theorem keeps_check {b : Bool} {e : ε} :
    Keeps f (check b e : Checked σ ε Unit) := by
  intro s a s' h
  cases (check_ok.mp h).2
  rfl

end Keeps

end Checked

end GhostDataplane.Lib
