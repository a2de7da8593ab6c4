import Mathlib.Data.List.Basic
import Mathlib.Data.List.DropRight
import Mathlib.Data.List.TakeWhile

/-!
# The grammar of JSON texts

A JSON text is read from the left. `Value n t v t'` says that `t` begins with
the spelling of the value `v`, in which arrays and objects are nested no deeper
than `n`, and that `t'` is what comes after it.

How strings and numbers are spelled, and which characters may stand between two
tokens, differs from reader to reader while the rest does not, so these are
collected in a `Lexicon`. What the values are is a parameter as well: `Values`
has one operation for each kind of value. Two readers are compared token by
token: if one reads every number of the other, and of its strings those that it
has a counterpart for, then `Value.embed` says which texts it reads, and as
what.

Arrays and objects are lists between brackets. `Items` is such a list over
whatever one item is, which is a value for an array and a name with a value for
an object; `Value` is then a recursion on the depth. Every production has first
characters of its own, so if strings and numbers have only one reading then so
have values: `Value.functional`.
-/

namespace GhostDataplane.Lib.Json

/-- One operation for each kind of value, over strings `S` and numbers `N`. -/
structure Values (S N V : Type) where
  null : V
  bool : Bool → V
  string : S → V
  number : N → V
  array : List V → V
  object : List (S × V) → V

/-- Does a number begin with this character? -/
def startsNumber (c : Char) : Bool := c == '-' || c.isDigit

/-- What a reader takes for a string, a number and the space between tokens. A
relation of three arguments is of a text, the value it begins with and the rest
of it. -/
structure Lexicon (S N : Type) where
  blank : Char → Bool
  string : List Char → S → List Char → Prop
  number : List Char → N → List Char → Prop
  blank_le : ∀ c, blank c = true → c.toNat ≤ 32
  string_head : ∀ {t s t'}, string t s t' → ∃ u, t = '"' :: u
  number_head : ∀ {t x t'}, number t x t' → ∃ c u, t = c :: u ∧
    startsNumber c = true

section Grammar

variable {S N V α : Type}

/-- The text from its first token on. -/
def Lexicon.skip (L : Lexicon S N) (t : List Char) :
    List Char := t.dropWhile L.blank

/-- A list of items with commas between them and a bracket at its end. An item
comes with the space around it, so that what is after it begins with the comma
or the bracket. -/
inductive Items (closing : Char) (item : List Char → α → List Char → Prop) :
    List Char → List α → List Char → Prop where
  | last {t t' : List Char} {a : α} (h : item t a (closing :: t')) :
      Items closing item t [a] t'
  | more {t t₁ t' : List Char} {a : α} {as : List α} (h : item t a (',' :: t₁))
      (rest : Items closing item t₁ as t') : Items closing item t (a :: as) t'

variable (L : Lexicon S N) (A : Values S N V)

/-- The values that are not nested. -/
inductive Atom : List Char → V → List Char → Prop where
  | nullWord {t : List Char} : Atom ('n' :: 'u' :: 'l' :: 'l' :: t) A.null t
  | falseWord {t : List Char} :
      Atom ('f' :: 'a' :: 'l' :: 's' :: 'e' :: t) (A.bool false) t
  | trueWord {t : List Char} :
      Atom ('t' :: 'r' :: 'u' :: 'e' :: t) (A.bool true) t
  | string {t t' : List Char} {s : S} (h : L.string t s t') :
      Atom t (A.string s) t'
  | number {t t' : List Char} {x : N} (h : L.number t x t') :
      Atom t (A.number x) t'

/-- An element of an array. -/
def Element (value : List Char → V → List Char → Prop) (t : List Char) (v : V)
    (t' : List Char) : Prop :=
  ∃ t₁, value (L.skip t) v t₁ ∧ L.skip t₁ = t'

/-- A member of an object. -/
def Member (value : List Char → V → List Char → Prop) (t : List Char)
    (m : S × V) (t' : List Char) : Prop :=
  ∃ t₁ t₂, L.string (L.skip t) m.1 t₁ ∧ L.skip t₁ = ':' :: t₂ ∧
    Element L value t₂ m.2 t'

/-- A list between brackets, from behind the one that opens it. -/
def Bracketed (closing : Char) (item : List Char → α → List Char → Prop)
    (t : List Char) (as : List α) (t' : List Char) : Prop :=
  (as = [] ∧ L.skip t = closing :: t') ∨ Items closing item t as t'

/-- Arrays and objects, over the values inside them. -/
inductive Nested (value : List Char → V → List Char → Prop) :
    List Char → V → List Char → Prop where
  | array {t t' : List Char} {vs : List V}
      (h : Bracketed L ']' (Element L value) t vs t') :
      Nested value ('[' :: t) (A.array vs) t'
  | object {t t' : List Char} {ms : List (S × V)}
      (h : Bracketed L '}' (Member L value) t ms t') :
      Nested value ('{' :: t) (A.object ms) t'

/-- A value at the beginning of a text, nested no deeper than the bound. -/
def Value : Nat → List Char → V → List Char → Prop
  | 0, t, v, t' => Atom L A t v t'
  | n + 1, t, v, t' => Atom L A t v t' ∨ Nested L A (Value n) t v t'

end Grammar

/-! ## The first character decides -/

section Heads

variable {S N V α : Type} {L : Lexicon S N} {A : Values S N V}
  {value : List Char → V → List Char → Prop}
  {n : Nat} {t t' : List Char} {v : V} {s : S} {x : N} {c : Char}

theorem Lexicon.not_string_cons (hc : c ≠ '"') : ¬ L.string (c :: t) s t' := by
  intro h
  obtain ⟨u, hu⟩ := L.string_head h
  injection hu with hu
  exact hc hu

theorem Lexicon.not_number_cons (hc : startsNumber c = false) :
    ¬ L.number (c :: t) x t' := by
  intro h
  obtain ⟨d, u, hu, hd⟩ := L.number_head h
  injection hu with hu
  rw [← hu, hc] at hd
  cases hd

/-- Does a value that is not nested begin with this character? -/
def startsAtom (c : Char) : Bool :=
  c == 'n' || c == 'f' || c == 't' || c == '"' || startsNumber c

theorem Atom.head (h : Atom L A t v t') :
    ∃ c u, t = c :: u ∧ startsAtom c = true := by
  cases h with
  | nullWord => exact ⟨_, _, rfl, rfl⟩
  | falseWord => exact ⟨_, _, rfl, rfl⟩
  | trueWord => exact ⟨_, _, rfl, rfl⟩
  | string h =>
      obtain ⟨u, rfl⟩ := L.string_head h
      exact ⟨_, _, rfl, rfl⟩
  | number h =>
      obtain ⟨c, u, rfl, hc⟩ := L.number_head h
      refine ⟨c, u, rfl, ?_⟩
      rw [startsAtom, hc, Bool.or_true]

theorem Atom.not_cons (hc : startsAtom c = false) :
    ¬ Atom L A (c :: t) v t' := by
  intro h
  obtain ⟨d, u, hu, hd⟩ := h.head
  injection hu with hu
  rw [← hu, hc] at hd
  cases hd

theorem Atom.of_number (hc : startsNumber c = true)
    (h : Atom L A (c :: t) v t') :
    ∃ x, L.number (c :: t) x t' := by
  cases h with
  | number h => exact ⟨_, h⟩
  | string h =>
      obtain ⟨u, hu⟩ := L.string_head h
      cases hu
      cases hc
  | _ => cases hc

theorem Atom.of_string (h : Atom L A ('"' :: t) v t') :
    ∃ s, L.string ('"' :: t) s t' := by
  cases h with
  | string h => exact ⟨_, h⟩
  | number h => exact (L.not_number_cons rfl h).elim

/-- What begins like a word is at most one atom. -/
theorem Atom.word_unique {w : V} {t'' : List Char} (hq : c ≠ '"')
    (hn : startsNumber c = false) (h : Atom L A (c :: t) v t')
    (h' : Atom L A (c :: t) w t'') : v = w ∧ t' = t'' := by
  cases h with
  | string h => exact absurd h (L.not_string_cons hq)
  | number h => exact absurd h (L.not_number_cons hn)
  | _ =>
      cases h' with
      | string h' => exact absurd h' (L.not_string_cons hq)
      | number h' => exact absurd h' (L.not_number_cons hn)
      | _ => exact ⟨rfl, rfl⟩

theorem Atom.word_iff {w : V} {t'' : List Char} (hq : c ≠ '"')
    (hn : startsNumber c = false) (h : Atom L A (c :: t) v t') :
    Atom L A (c :: t) w t'' ↔ some v = some w ∧ t'' = t' := by
  constructor
  · intro h'
    obtain ⟨rfl, rfl⟩ := h.word_unique hq hn h'
    exact ⟨rfl, rfl⟩
  · rintro ⟨⟨⟩, rfl⟩
    exact h

theorem Nested.head (h : Nested L A value t v t') :
    ∃ c u, t = c :: u ∧ (c = '[' ∨ c = '{') := by
  cases h with
  | array => exact ⟨_, _, rfl, .inl rfl⟩
  | object => exact ⟨_, _, rfl, .inr rfl⟩

theorem Nested.not_atom {w : V} {t'' : List Char}
    (h : Nested L A value t v t') :
    ¬ Atom L A t w t'' := by
  obtain ⟨c, u, rfl, hc⟩ := h.head
  refine Atom.not_cons ?_
  rcases hc with rfl | rfl
  · rfl
  · rfl

/-- A value does not begin with a bracket that closes. -/
theorem Value.not_bracket : ¬ Value L A n (']' :: t) v t' := by
  intro h
  have hatom : ¬ Atom L A (']' :: t) v t' := Atom.not_cons rfl
  cases n with
  | zero => exact hatom h
  | succ n =>
      rcases h with h | h
      · exact hatom h
      · cases h

theorem Atom.toValue (h : Atom L A t v t') : Value L A n t v t' := by
  cases n with
  | zero => exact h
  | succ n => exact .inl h

/-- A value is an atom, or it is nested and that is allowed. -/
theorem Value.cases (h : Value L A n t v t') :
    Atom L A t v t' ∨ ∃ m, n = m + 1 ∧ Nested L A (Value L A m) t v t' := by
  cases n with
  | zero => exact .inl h
  | succ n => exact h.imp_right fun h => ⟨n, rfl, h⟩

theorem Value.array_iff : Value L A (n + 1) ('[' :: t) v t' ↔
    ∃ vs, v = A.array vs ∧
      Bracketed L ']' (Element L (Value L A n)) t vs t' := by
  constructor
  · rintro (h | h)
    · exact absurd h (Atom.not_cons rfl)
    · cases h with
      | array h => exact ⟨_, rfl, h⟩
  · rintro ⟨vs, rfl, h⟩
    exact .inr (.array h)

theorem Value.object_iff : Value L A (n + 1) ('{' :: t) v t' ↔
    ∃ ms, v = A.object ms ∧
      Bracketed L '}' (Member L (Value L A n)) t ms t' := by
  constructor
  · rintro (h | h)
    · exact absurd h (Atom.not_cons rfl)
    · cases h with
      | object h => exact ⟨_, rfl, h⟩
  · rintro ⟨ms, rfl, h⟩
    exact .inr (.object h)

theorem Lexicon.skip_cons_of_lt (hc : 32 < c.toNat) :
    L.skip (c :: t) = c :: t := by
  refine List.dropWhile_cons_of_neg fun hb => ?_
  have hle := L.blank_le c hb
  omega

theorem Lexicon.length_skip_le (t : List Char) : (L.skip t).length ≤ t.length :=
  (List.dropWhile_sublist _).length_le

theorem Lexicon.skip_skip (t : List Char) : L.skip (L.skip t) = L.skip t :=
  List.dropWhile_idempotent _ t

end Heads

/-! ## There is only one reading -/

/-- A relation that determines the value and the rest. -/
def Functional {α : Type} (r : List Char → α → List Char → Prop) : Prop :=
  ∀ ⦃t a a' t' t''⦄, r t a t' → r t a' t'' → a = a' ∧ t' = t''

/-- In such a lexicon strings and numbers have one reading. -/
structure Lexicon.IsFunctional {S N : Type} (L : Lexicon S N) : Prop where
  string : Functional L.string
  number : Functional L.number

/-- What a relation needs to be one of items in a list that ends with
`closing`. -/
structure IsItem {S N α : Type} (L : Lexicon S N) (closing : Char)
    (item : List Char → α → List Char → Prop) : Prop where
  functional : Functional item
  skip : ∀ t a t', item (L.skip t) a t' ↔ item t a t'
  not_closing : ∀ u a t', ¬ item (closing :: u) a t'
  closing_ne : closing ≠ ','

section Unique

variable {S N V α : Type} {L : Lexicon S N} {A : Values S N V}
  {value : List Char → V → List Char → Prop}
  {item : List Char → α → List Char → Prop} {closing : Char}

theorem Items.functional (hitem : Functional item) (hclosing : closing ≠ ',') :
    Functional (Items closing item) := by
  intro t as as' t' t'' h h'
  induction h generalizing as' with
  | last h =>
      cases h' with
      | last h' =>
          obtain ⟨rfl, heq⟩ := hitem h h'
          cases heq
          exact ⟨rfl, rfl⟩
      | more h' _ =>
          injection (hitem h h').2 with heq
          exact absurd heq hclosing
  | more h _ ih =>
      cases h' with
      | last h' =>
          injection (hitem h h').2 with heq
          exact absurd heq.symm hclosing
      | more h' rest' =>
          obtain ⟨rfl, heq⟩ := hitem h h'
          cases heq
          obtain ⟨rfl, rfl⟩ := ih rest'
          exact ⟨rfl, rfl⟩

theorem Items.head {t t' : List Char} {as : List α}
    (h : Items closing item t as t') :
    ∃ a t₁, item t a t₁ := by
  cases h with
  | last h => exact ⟨_, _, h⟩
  | more h _ => exact ⟨_, _, h⟩

/-- A list whose first item is followed by a comma. -/
theorem Items.more_iff {t t₁ t' : List Char} {a : α} {as : List α}
    (hitem : IsItem L closing item) (ha : item t a (',' :: t₁)) :
    Items closing item t as t' ↔ ∃ as', Items closing item t₁ as' t' ∧
      as = a :: as' := by
  constructor
  · intro h
    cases h with
    | last h =>
        injection (hitem.functional ha h).2 with heq
        exact absurd heq.symm hitem.closing_ne
    | more h rest =>
        obtain ⟨rfl, heq⟩ := hitem.functional ha h
        cases heq
        exact ⟨_, rest, rfl⟩
  · rintro ⟨as', h, rfl⟩
    exact .more ha h

/-- A list whose first item is not. -/
theorem Items.last_iff {t t₁ t' : List Char} {a : α} {as : List α}
    (hitem : IsItem L closing item) (ha : item t a t₁)
    (hcomma : t₁.head? ≠ some ',') :
    Items closing item t as t' ↔ as = [a] ∧ t₁ = closing :: t' := by
  constructor
  · intro h
    cases h with
    | last h =>
        obtain ⟨rfl, rfl⟩ := hitem.functional ha h
        exact ⟨rfl, rfl⟩
    | more h _ =>
        obtain ⟨rfl, rfl⟩ := hitem.functional ha h
        exact absurd rfl hcomma
  · rintro ⟨rfl, rfl⟩
    exact .last ha

theorem Items.skip_iff {t t' : List Char} {as : List α}
    (hitem : IsItem L closing item) :
    Items closing item (L.skip t) as t' ↔ Items closing item t as t' := by
  constructor
  · intro h
    cases h with
    | last h => exact .last ((hitem.skip _ _ _).mp h)
    | more h rest => exact .more ((hitem.skip _ _ _).mp h) rest
  · intro h
    cases h with
    | last h => exact .last ((hitem.skip _ _ _).mpr h)
    | more h rest => exact .more ((hitem.skip _ _ _).mpr h) rest

/-- Where there is a bracket that closes there is no item. -/
theorem Items.not_closing {t t' u : List Char} {as : List α}
    (hitem : IsItem L closing item) (h : Items closing item t as t') :
    L.skip t ≠ closing :: u := by
  intro heq
  obtain ⟨a, t₁, ha⟩ := h.head
  exact hitem.not_closing u a t₁ (heq ▸ (hitem.skip t a t₁).mpr ha)

theorem Bracketed.functional (hitem : IsItem L closing item) :
    Functional (Bracketed L closing item) := by
  rintro t as as' t' t'' (⟨rfl, h⟩ | h) (⟨rfl, h'⟩ | h')
  · cases h.symm.trans h'
    exact ⟨rfl, rfl⟩
  · exact absurd h (h'.not_closing hitem)
  · exact absurd h' (h.not_closing hitem)
  · exact Items.functional hitem.functional hitem.closing_ne h h'

/-- A list that does not end at once. -/
theorem Bracketed.iff_items {t t' : List Char} {as : List α}
    (hitem : IsItem L closing item) (hne : (L.skip t).head? ≠ some closing) :
    Bracketed L closing item t as t' ↔ Items closing item (L.skip t) as t' := by
  rw [Items.skip_iff hitem]
  constructor
  · rintro (⟨rfl, h⟩ | h)
    · rw [h] at hne
      exact absurd rfl hne
    · exact h
  · exact .inr

theorem Element.isItem (hvalue : Functional value)
    (hbracket : ∀ t v t', ¬ value (']' :: t) v t') :
    IsItem L ']' (Element L value) where
  functional := by
    rintro t v w t' t'' ⟨t₁, h, rfl⟩ ⟨t₂, h', rfl⟩
    obtain ⟨rfl, rfl⟩ := hvalue h h'
    exact ⟨rfl, rfl⟩
  skip t v t' := by rw [Element, Element, L.skip_skip]
  not_closing := by
    rintro u v t' ⟨t₁, h, -⟩
    rw [L.skip_cons_of_lt (by decide)] at h
    exact hbracket u v t₁ h
  closing_ne := by decide

theorem Member.isItem (hL : L.IsFunctional) (hvalue : Functional value) :
    IsItem L '}' (Member L value) where
  functional := by
    rintro t ⟨k, v⟩ ⟨k', w⟩ t' t'' ⟨t₁, t₂, hk, hcolon, u, h, rfl⟩
      ⟨t₁', t₂', hk', hcolon', u', h', rfl⟩
    obtain ⟨rfl, rfl⟩ := hL.string hk hk'
    cases hcolon.symm.trans hcolon'
    obtain ⟨rfl, rfl⟩ := hvalue h h'
    exact ⟨rfl, rfl⟩
  skip t m t' := by rw [Member, Member, L.skip_skip]
  not_closing := by
    rintro u m t' ⟨t₁, t₂, h, -⟩
    rw [L.skip_cons_of_lt (by decide)] at h
    exact L.not_string_cons (by decide) h
  closing_ne := by decide

theorem Atom.functional (hL : L.IsFunctional) : Functional (Atom L A) := by
  intro t v w t' t'' h h'
  cases h with
  | string hs =>
      obtain ⟨u, rfl⟩ := L.string_head hs
      cases h' with
      | string h' =>
          obtain ⟨rfl, rfl⟩ := hL.string hs h'
          exact ⟨rfl, rfl⟩
      | number h' => exact (L.not_number_cons rfl h').elim
  | number hx =>
      obtain ⟨c, u, rfl, hc⟩ := L.number_head hx
      cases h' with
      | number h' =>
          obtain ⟨rfl, rfl⟩ := hL.number hx h'
          exact ⟨rfl, rfl⟩
      | string h' =>
          obtain ⟨u', hu⟩ := L.string_head h'
          cases hu
          cases hc
      | _ => cases hc
  | nullWord => exact Atom.word_unique (by decide) rfl .nullWord h'
  | falseWord => exact Atom.word_unique (by decide) rfl .falseWord h'
  | trueWord => exact Atom.word_unique (by decide) rfl .trueWord h'

theorem Nested.functional (hL : L.IsFunctional) (hvalue : Functional value)
    (hbracket : ∀ t v t', ¬ value (']' :: t) v t') :
    Functional (Nested L A value) := by
  intro t v w t' t'' h h'
  cases h with
  | array h =>
      cases h' with
      | array h' =>
          obtain ⟨rfl, rfl⟩ :=
            Bracketed.functional (Element.isItem hvalue hbracket) h h'
          exact ⟨rfl, rfl⟩
  | object h =>
      cases h' with
      | object h' =>
          obtain ⟨rfl, rfl⟩ :=
            Bracketed.functional (Member.isItem hL hvalue) h h'
          exact ⟨rfl, rfl⟩

/-- A text begins with at most one value. -/
theorem Value.functional (hL : L.IsFunctional) (n : Nat) :
    Functional (Value L A n) := by
  induction n with
  | zero => exact Atom.functional hL
  | succ n ih =>
      rintro t v w t' t'' (h | h) (h' | h')
      · exact Atom.functional hL h h'
      · exact absurd h h'.not_atom
      · exact absurd h' h.not_atom
      · exact Nested.functional hL ih (fun _ _ _ => Value.not_bracket) h h'

end Unique

/-! ## Two readers of one text

One reader may work on the characters of a text and another on its bytes. `f`
turns a text for the one into a text for the other, and leaves the characters
below 128 as they are, which are all that the grammar itself has. The second
reader makes of a number what `k` says. Of a string it makes what `g` says, and
where that is nothing it does not go on. -/

section Embed

variable {S S' N N' V α β : Type} {L : Lexicon S N} {L' : Lexicon S' N'}
  {A : Values S' N' V} {f : List Char → List Char} {g : S → Option S'}
  {k : N → N'}

/-- What the second reader makes of the texts of `L`. -/
structure Lexicon.Embeds (L : Lexicon S N) (L' : Lexicon S' N')
    (f : List Char → List Char) (g : S → Option S') (k : N → N') : Prop where
  nil : f [] = []
  ascii : ∀ c t, c.toNat < 128 → f (c :: t) = c :: f t
  blank : ∀ c, L.blank c = true → L'.blank c = true
  string : ∀ {t s t'}, L.string t s t' →
    ∀ s' u, L'.string (f t) s' u ↔ g s = some s' ∧ u = f t'
  number : ∀ {t x t'}, L.number t x t' →
    ∀ x' u, L'.number (f t) x' u ↔ x' = k x ∧ u = f t'

/-- A member, if it has a name and a value. -/
def both : Option α × Option β → Option (α × β)
  | (some a, some b) => some (a, b)
  | _ => none

theorem both_eq_some_iff {a : Option α} {b : Option β} {p : α × β} :
    both (a, b) = some p ↔ a = some p.1 ∧ b = some p.2 := by
  cases a with
  | none => simp [both]
  | some a =>
      cases b with
      | none => simp [both]
      | some b => simp [both, Prod.ext_iff]

theorem allSome_cons_iff {a : Option α} {as : List (Option α)} {bs : List α} :
    (a :: as).allSome = some bs ↔
      ∃ b bs', a = some b ∧ as.allSome = some bs' ∧ bs = b :: bs' := by
  simp [List.allSome, Option.bind_eq_some_iff, @eq_comm _ bs]

theorem allSome_map (f : α → β) (as : List (Option α)) :
    (as.map (Option.map f)).allSome = as.allSome.map (List.map f) := by
  induction as with
  | nil => rfl
  | cons a as ih =>
      cases a with
      | none => rfl
      | some a =>
          rw [List.map_cons]
          cases h : as.allSome with
          | none => simp_all [List.allSome]
          | some bs => simp_all [List.allSome]

/-- The values of the second reader for strings and numbers of the first. There
is none if it has no counterpart for a string. -/
def Values.partly (A : Values S' N' V) (g : S → Option S') (k : N → N') :
    Values S N (Option V) where
  null := some A.null
  bool b := some (A.bool b)
  string s := (g s).map A.string
  number x := some (A.number (k x))
  array vs := vs.allSome.map A.array
  object ms := (ms.map fun m => both (g m.1, m.2)).allSome.map A.object

/-- A character of the grammar: it is not blank, and it is one byte. -/
def IsToken (c : Char) : Prop := 32 < c.toNat ∧ c.toNat < 128

/-- The second reader passes over what the first passes over. -/
theorem Lexicon.Embeds.skip_eq (h : L.Embeds L' f g k) (t : List Char) :
    L'.skip (f t) = L'.skip (f (L.skip t)) := by
  induction t with
  | nil => rfl
  | cons d t ih =>
      by_cases hd : L.blank d = true
      · have hle := L.blank_le d hd
        have hleft : L'.skip (f (d :: t)) = L'.skip (f t) := by
          rw [h.ascii d t (by omega), Lexicon.skip,
            List.dropWhile_cons_of_pos (h.blank d hd), Lexicon.skip]
        have hright : L.skip (d :: t) = L.skip t :=
          List.dropWhile_cons_of_pos hd
        rw [hleft, hright, ih]
      · have hskip : L.skip (d :: t) = d :: t := List.dropWhile_cons_of_neg hd
        rw [hskip]

theorem Lexicon.Embeds.skip {t u : List Char} {c : Char}
    (h : L.Embeds L' f g k) (hskip : L.skip t = c :: u) (hc : IsToken c) :
    L'.skip (f t) = c :: f u := by
  rw [h.skip_eq, hskip, h.ascii c u hc.2, L'.skip_cons_of_lt hc.1]

theorem Lexicon.Embeds.skip_nil {t : List Char} (h : L.Embeds L' f g k)
    (hskip : L.skip t = []) : L'.skip (f t) = [] := by
  rw [h.skip_eq, hskip, h.nil]
  rfl

theorem isToken_of_startsNumber {c : Char} (hc : startsNumber c = true) :
    IsToken c := by
  rcases Bool.or_eq_true _ _ ▸ hc with hc | hc
  · rw [beq_iff_eq.mp hc]
    exact ⟨by decide, by decide⟩
  · simp only [Char.isDigit, Bool.and_eq_true, decide_eq_true_eq] at hc
    have hge : 48 ≤ c.toNat := hc.1
    have hle : c.toNat ≤ 57 := hc.2
    exact ⟨by omega, by omega⟩

theorem isToken_of_startsAtom {c : Char} (hc : startsAtom c = true) :
    IsToken c := by
  simp only [startsAtom, Bool.or_eq_true, beq_iff_eq] at hc
  rcases hc with (((rfl | rfl) | rfl) | rfl) | hc
  · exact ⟨by decide, by decide⟩
  · exact ⟨by decide, by decide⟩
  · exact ⟨by decide, by decide⟩
  · exact ⟨by decide, by decide⟩
  · exact isToken_of_startsNumber hc

/-- A value begins with a token that closes nothing. -/
theorem Value.head {A : Values S N V} {n : Nat} {t t' : List Char} {v : V}
    (h : Value L A n t v t') : ∃ c u, t = c :: u ∧ IsToken c ∧ c ≠ ']' := by
  have hne : ∀ c u, t = c :: u → c ≠ ']' := by
    rintro c u rfl rfl
    exact Value.not_bracket h
  rcases h.cases with h | ⟨m, -, h⟩
  · obtain ⟨c, u, rfl, hc⟩ := h.head
    exact ⟨c, u, rfl, isToken_of_startsAtom hc, hne c u rfl⟩
  · obtain ⟨c, u, rfl, rfl | rfl⟩ := h.head
    · exact ⟨_, u, rfl, ⟨by decide, by decide⟩, by decide⟩
    · exact ⟨_, u, rfl, ⟨by decide, by decide⟩, by decide⟩

theorem Atom.embed {t t' : List Char} {v : Option V} (hf : L.Embeds L' f g k)
    (h : Atom L (A.partly g k) t v t') (w : V) (u : List Char) :
    Atom L' A (f t) w u ↔ v = some w ∧ u = f t' := by
  cases h with
  | nullWord =>
      rw [hf.ascii _ _ (by decide), hf.ascii _ _ (by decide),
        hf.ascii _ _ (by decide), hf.ascii _ _ (by decide)]
      exact Atom.word_iff (by decide) rfl .nullWord
  | falseWord =>
      rw [hf.ascii _ _ (by decide), hf.ascii _ _ (by decide),
        hf.ascii _ _ (by decide), hf.ascii _ _ (by decide),
        hf.ascii _ _ (by decide)]
      exact Atom.word_iff (by decide) rfl .falseWord
  | trueWord =>
      rw [hf.ascii _ _ (by decide), hf.ascii _ _ (by decide),
        hf.ascii _ _ (by decide), hf.ascii _ _ (by decide)]
      exact Atom.word_iff (by decide) rfl .trueWord
  | @string _ _ s hs =>
      have hread := hf.string hs
      obtain ⟨t, rfl⟩ := L.string_head hs
      rw [hf.ascii _ _ (by decide)] at hread ⊢
      constructor
      · intro h
        cases h with
        | string h =>
            obtain ⟨hg, rfl⟩ := (hread _ _).mp h
            exact ⟨congrArg (Option.map A.string) hg, rfl⟩
        | number h => exact absurd h (L'.not_number_cons rfl)
      · rintro ⟨hv, rfl⟩
        obtain ⟨s', hg, rfl⟩ := Option.map_eq_some_iff.mp hv
        exact .string ((hread _ _).mpr ⟨hg, rfl⟩)
  | @number _ _ x hx =>
      have hread := hf.number hx
      obtain ⟨c, t, rfl, hc⟩ := L.number_head hx
      rw [hf.ascii _ _ (isToken_of_startsNumber hc).2] at hread ⊢
      generalize f t = bytes at hread ⊢
      constructor
      · intro h
        cases h with
        | number h =>
            obtain ⟨rfl, rfl⟩ := (hread _ _).mp h
            exact ⟨rfl, rfl⟩
        | string h =>
            obtain ⟨u', hu⟩ := L'.string_head h
            injection hu with hu
            rw [hu] at hc
            cases hc
        | _ => cases hc
      · rintro ⟨⟨⟩, rfl⟩
        exact .number ((hread _ _).mpr ⟨rfl, rfl⟩)

/-- What the second reader makes of one item, up to the token that follows it.
An item of the first begins with a token, but not with the bracket. -/
structure Matches (L : Lexicon S N) (L' : Lexicon S' N') (closing : Char)
    (f : List Char → List Char) (h : α → Option β)
    (item : List Char → α → List Char → Prop)
    (item' : List Char → β → List Char → Prop) : Prop where
  read : ∀ {t a c t'}, IsToken c → item t a (c :: t') →
    ∀ b u, item' (f t) b u ↔ h a = some b ∧ u = c :: f t'
  head : ∀ {t a t'}, item t a t' →
    ∃ c u, L.skip t = c :: u ∧ IsToken c ∧ c ≠ closing
  not_closing : ∀ {t u b t'}, L'.skip t = closing :: u → ¬ item' t b t'
  closing : IsToken closing ∧ closing ≠ ','

theorem Element.embed {n : Nat} (hf : L.Embeds L' f g k)
    (hvalue : ∀ {t v t'}, Value L (A.partly g k) n t v t' →
      ∀ w u, Value L' A n (f t) w u ↔ v = some w ∧ u = f t') :
    Matches L L' ']' f id (Element L (Value L (A.partly g k) n))
      (Element L' (Value L' A n)) where
  read := by
    rintro t v c t' hc ⟨t₁, h, hskip⟩ w u
    obtain ⟨d, t₀, hd, htoken, -⟩ := h.head
    have hread := hvalue h
    rw [hd, hf.ascii d t₀ htoken.2, ← hf.skip hd htoken] at hread
    have hrest := hf.skip hskip hc
    constructor
    · rintro ⟨u₁, hw, rfl⟩
      obtain ⟨hv, rfl⟩ := (hread w u₁).mp hw
      exact ⟨hv, hrest⟩
    · rintro ⟨hv, rfl⟩
      exact ⟨f t₁, (hread _ _).mpr ⟨hv, rfl⟩, hrest⟩
  head := by
    rintro t v t' ⟨t₁, h, -⟩
    exact h.head
  not_closing := by
    rintro t u w t' hskip ⟨t₁, h, -⟩
    rw [hskip] at h
    exact Value.not_bracket h
  closing := ⟨⟨by decide, by decide⟩, by decide⟩

theorem Member.embed {n : Nat} (hf : L.Embeds L' f g k)
    (hvalue : ∀ {t v t'}, Value L (A.partly g k) n t v t' →
      ∀ w u, Value L' A n (f t) w u ↔ v = some w ∧ u = f t') :
    Matches L L' '}' f (fun m => both (g m.1, m.2))
      (Member L (Value L (A.partly g k) n)) (Member L' (Value L' A n)) where
  read := by
    rintro t ⟨s, v⟩ c t' hc ⟨t₁, t₂, hs, hcolon, h⟩ ⟨s', w⟩ u
    obtain ⟨t₀, ht⟩ := L.string_head hs
    have hname := hf.string hs
    rw [ht, hf.ascii _ _ (by decide),
      ← hf.skip ht ⟨by decide, by decide⟩] at hname
    have hrest := hf.skip hcolon ⟨by decide, by decide⟩
    have hread := (Element.embed hf hvalue).read hc h
    rw [both_eq_some_iff]
    constructor
    · rintro ⟨u₁, u₂, hs', hcolon', hw⟩
      obtain ⟨hg, rfl⟩ := (hname _ _).mp hs'
      cases hrest.symm.trans hcolon'
      obtain ⟨hv, rfl⟩ := (hread _ _).mp hw
      exact ⟨⟨hg, hv⟩, rfl⟩
    · rintro ⟨⟨hg, hv⟩, rfl⟩
      exact ⟨f t₁, f t₂, (hname _ _).mpr ⟨hg, rfl⟩, hrest,
        (hread _ _).mpr ⟨hv, rfl⟩⟩
  head := by
    rintro t m t' ⟨t₁, t₂, hs, -⟩
    obtain ⟨t₀, ht⟩ := L.string_head hs
    exact ⟨_, t₀, ht, ⟨by decide, by decide⟩, by decide⟩
  not_closing := by
    rintro t u m t' hskip ⟨t₁, t₂, hs, -⟩
    rw [hskip] at hs
    exact L'.not_string_cons (by decide) hs
  closing := ⟨⟨by decide, by decide⟩, by decide⟩

section Lists

variable {closing : Char} {h : α → Option β}
  {item : List Char → α → List Char → Prop}
  {item' : List Char → β → List Char → Prop}

theorem Items.embed {t t' : List Char} {as : List α}
    (hm : Matches L L' closing f h item item')
    (hitems : Items closing item t as t') (bs : List β) (u : List Char) :
    Items closing item' (f t) bs u ↔
      (as.map h).allSome = some bs ∧ u = f t' := by
  induction hitems generalizing bs with
  | @last t t' a ha =>
      have hread := hm.read hm.closing.1 ha
      rw [List.map_singleton, allSome_cons_iff]
      constructor
      · intro hb
        cases hb with
        | last hb =>
            obtain ⟨ha', hu⟩ := (hread _ _).mp hb
            cases hu
            exact ⟨⟨_, [], ha', rfl, rfl⟩, rfl⟩
        | more hb _ =>
            injection ((hread _ _).mp hb).2 with hu
            exact absurd hu.symm hm.closing.2
      · rintro ⟨⟨b, bs, hb, hnil, rfl⟩, rfl⟩
        cases hnil
        exact .last ((hread _ _).mpr ⟨hb, rfl⟩)
  | @more t t₁ t' a as ha _ ih =>
      have hread := hm.read ⟨by decide, by decide⟩ ha
      rw [List.map_cons, allSome_cons_iff]
      constructor
      · intro hb
        cases hb with
        | last hb =>
            injection ((hread _ _).mp hb).2 with hu
            exact absurd hu hm.closing.2
        | more hb hrest =>
            obtain ⟨ha', hu⟩ := (hread _ _).mp hb
            cases hu
            obtain ⟨hbs, rfl⟩ := (ih _).mp hrest
            exact ⟨⟨_, _, ha', hbs, rfl⟩, rfl⟩
      · rintro ⟨⟨b, bs, hb, hbs, rfl⟩, rfl⟩
        exact .more ((hread _ _).mpr ⟨hb, rfl⟩) ((ih _).mpr ⟨hbs, rfl⟩)

theorem Bracketed.embed {t t' : List Char} {as : List α}
    (hf : L.Embeds L' f g k) (hm : Matches L L' closing f h item item')
    (hlist : Bracketed L closing item t as t') (bs : List β) (u : List Char) :
    Bracketed L' closing item' (f t) bs u ↔
      (as.map h).allSome = some bs ∧ u = f t' := by
  rcases hlist with ⟨rfl, hskip⟩ | hitems
  · have hskip' := hf.skip hskip hm.closing.1
    constructor
    · rintro (⟨rfl, hu⟩ | hb)
      · cases hskip'.symm.trans hu
        exact ⟨rfl, rfl⟩
      · obtain ⟨b, u₁, hb⟩ := hb.head
        exact absurd hb (hm.not_closing hskip')
    · rintro ⟨hnil, rfl⟩
      cases hnil
      exact .inl ⟨rfl, hskip'⟩
  · obtain ⟨a, t₁, ha⟩ := hitems.head
    obtain ⟨c, t₀, hc, htoken, hne⟩ := hm.head ha
    rw [← hitems.embed hm]
    constructor
    · rintro (⟨rfl, hu⟩ | hb)
      · cases (hf.skip hc htoken).symm.trans hu
        exact absurd rfl hne
      · exact hb
    · exact .inr

end Lists

theorem Nested.embed {n : Nat} {t t' : List Char} {v : Option V}
    (hf : L.Embeds L' f g k)
    (hvalue : ∀ {t v t'}, Value L (A.partly g k) n t v t' →
      ∀ w u, Value L' A n (f t) w u ↔ v = some w ∧ u = f t')
    (h : Nested L (A.partly g k) (Value L (A.partly g k) n) t v t') (w : V)
    (u : List Char) :
    Nested L' A (Value L' A n) (f t) w u ↔ v = some w ∧ u = f t' := by
  cases h with
  | @array t _ vs h =>
      have hread := h.embed hf (Element.embed hf hvalue)
      rw [List.map_id] at hread
      rw [hf.ascii _ _ (by decide)]
      constructor
      · intro hw
        cases hw with
        | array hw =>
            obtain ⟨hvs, rfl⟩ := (hread _ _).mp hw
            exact ⟨congrArg (Option.map A.array) hvs, rfl⟩
      · rintro ⟨hv, rfl⟩
        obtain ⟨ws, hws, rfl⟩ := Option.map_eq_some_iff.mp hv
        exact .array ((hread _ _).mpr ⟨hws, rfl⟩)
  | @object t _ ms h =>
      have hread := h.embed hf (Member.embed hf hvalue)
      rw [hf.ascii _ _ (by decide)]
      constructor
      · intro hw
        cases hw with
        | object hw =>
            obtain ⟨hms, rfl⟩ := (hread _ _).mp hw
            exact ⟨congrArg (Option.map A.object) hms, rfl⟩
      · rintro ⟨hv, rfl⟩
        obtain ⟨ws, hws, rfl⟩ := Option.map_eq_some_iff.mp hv
        exact .object ((hread _ _).mpr ⟨hws, rfl⟩)

/-- A text of the first reader is read by the second exactly if it has a value
there, and then as this value and to the same end. -/
theorem Value.embed {n : Nat} {t t' : List Char} {v : Option V}
    (hf : L.Embeds L' f g k) (h : Value L (A.partly g k) n t v t') (w : V)
    (u : List Char) : Value L' A n (f t) w u ↔ v = some w ∧ u = f t' := by
  induction n generalizing t v t' w u with
  | zero => exact Atom.embed hf h w u
  | succ n ih =>
      rcases h with h | h
      · obtain ⟨c, t₀, rfl, hc⟩ := h.head
        have hread := h.embed hf w u
        rw [hf.ascii _ _ (isToken_of_startsAtom hc).2] at hread ⊢
        rw [← hread]
        constructor
        · rintro (hw | hw)
          · exact hw
          · obtain ⟨d, u₀, hd, rfl | rfl⟩ := hw.head
            · cases hd
              cases hc
            · cases hd
              cases hc
        · exact .inl
      · have hread := h.embed hf (fun h w u => ih h w u) w u
        obtain ⟨c, t₀, rfl, hc⟩ := h.head
        have hlt : c.toNat < 128 := by
          rcases hc with rfl | rfl
          · decide
          · decide
        rw [hf.ascii _ _ hlt] at hread ⊢
        rw [← hread]
        constructor
        · rintro (hw | hw)
          · refine absurd hw (Atom.not_cons ?_)
            rcases hc with rfl | rfl
            · rfl
            · rfl
          · exact hw
        · exact .inr

end Embed

/-! ## Other values of the same text -/

section Map

variable {S N V W α β : Type} {L : Lexicon S N} {A : Values S N V}
  {B : Values S N W} {f : V → W}

/-- `f` turns the values of one kind into those of the other. -/
structure Values.Maps (A : Values S N V) (B : Values S N W) (f : V → W) :
    Prop where
  null : f A.null = B.null
  bool : ∀ b, f (A.bool b) = B.bool b
  string : ∀ s, f (A.string s) = B.string s
  number : ∀ x, f (A.number x) = B.number x
  array : ∀ vs, f (A.array vs) = B.array (vs.map f)
  object : ∀ ms, f (A.object ms) = B.object (ms.map fun m => (m.1, f m.2))

theorem Bracketed.map {closing : Char}
    {item : List Char → α → List Char → Prop}
    {item' : List Char → β → List Char → Prop} {k : α → β}
    {t t' : List Char} {as : List α}
    (hitem : ∀ t a t', item t a t' → item' t (k a) t')
    (h : Bracketed L closing item t as t') :
    Bracketed L closing item' t (as.map k) t' := by
  rcases h with ⟨rfl, h⟩ | h
  · exact .inl ⟨rfl, h⟩
  · refine .inr ?_
    induction h with
    | last h => exact .last (hitem _ _ _ h)
    | more h _ ih => exact .more (hitem _ _ _ h) ih

/-- The text has the other value as well. -/
theorem Value.map {n : Nat} {t t' : List Char} {v : V} (hf : A.Maps B f)
    (h : Value L A n t v t') : Value L B n t (f v) t' := by
  have hatom : ∀ {t v t'}, Atom L A t v t' → Atom L B t (f v) t' := by
    intro t v t' h
    cases h with
    | nullWord => rw [hf.null]; exact .nullWord
    | falseWord => rw [hf.bool]; exact .falseWord
    | trueWord => rw [hf.bool]; exact .trueWord
    | string h => rw [hf.string]; exact .string h
    | number h => rw [hf.number]; exact .number h
  induction n generalizing t v t' with
  | zero => exact hatom h
  | succ n ih =>
      rcases h with h | h
      · exact .inl (hatom h)
      · refine .inr ?_
        have helement : ∀ t v t', Element L (Value L A n) t v t' →
            Element L (Value L B n) t (f v) t' := by
          rintro t v t' ⟨t₁, h, hskip⟩
          exact ⟨t₁, ih h, hskip⟩
        cases h with
        | array h =>
            rw [hf.array]
            exact .array (h.map helement)
        | object h =>
            rw [hf.object]
            refine .object (h.map ?_)
            rintro t m t' ⟨t₁, t₂, hs, hcolon, h⟩
            exact ⟨t₁, t₂, hs, hcolon, helement _ _ _ h⟩

end Map

end GhostDataplane.Lib.Json
