import GhostDataplane.Lib.Decimal
import GhostDataplane.Lib.Json

/-!
# JSON as it is defined

The lexicon of the standard, over texts of Unicode characters. White space is
four characters. A number has no leading zeros, no sign but a minus, and digits
on both sides of its point. In a string a character stands for itself or is
escaped, by a short escape or by its code in hexadecimal; a character that four
digits cannot hold is escaped as two codes, the surrogates.

The grammar does not ask that surrogates come in pairs. Half of a pair is no
character, so a string stands for a list in which there may be gaps: `none` is
the place of a surrogate that has no partner. What a reader makes of such a
string the standard does not say. The longest number that is read is a
parameter.
-/

namespace GhostDataplane.Lib.Json.Standard

/-- The characters between two tokens. -/
def blank (c : Char) : Bool := c == ' ' || c == '\t' || c == '\n' || c == '\r'

/-! ## Strings -/

/-- What may follow a backslash, and the character that is meant. -/
def shortEscapes : List (Char × Char) :=
  [('"', '"'), ('\\', '\\'), ('/', '/'), ('b', Char.ofNat 8),
    ('f', Char.ofNat 12), ('n', '\n'), ('r', '\r'), ('t', '\t')]

/-- The hexadecimal digits. -/
def hexDigits : List (Char × Nat) :=
  [('0', 0), ('1', 1), ('2', 2), ('3', 3), ('4', 4), ('5', 5), ('6', 6),
    ('7', 7), ('8', 8), ('9', 9), ('a', 10), ('b', 11), ('c', 12), ('d', 13),
    ('e', 14), ('f', 15), ('A', 10), ('B', 11), ('C', 12), ('D', 13),
    ('E', 14), ('F', 15)]

/-- Four digits and their number. -/
inductive Hex4 : List Char → Nat → Prop where
  | mk {c₁ c₂ c₃ c₄ : Char} {d₁ d₂ d₃ d₄ : Nat} (h₁ : (c₁, d₁) ∈ hexDigits)
      (h₂ : (c₂, d₂) ∈ hexDigits) (h₃ : (c₃, d₃) ∈ hexDigits)
      (h₄ : (c₄, d₄) ∈ hexDigits) :
      Hex4 [c₁, c₂, c₃, c₄] (((d₁ * 16 + d₂) * 16 + d₃) * 16 + d₄)

/-- An escape with the second half of a pair comes next. -/
def LowFollows (t : List Char) : Prop :=
  ∃ es low t', t = '\\' :: 'u' :: (es ++ t') ∧ Hex4 es (0xDC00 + low) ∧
    low < 0x400

/-- What is between two quotes, and the characters that it stands for. -/
inductive Spells : List Char → List (Option Char) → Prop where
  | nil : Spells [] []
  | raw {c : Char} {t : List Char} {cs : List (Option Char)}
      (hc : 0x20 ≤ c.toNat) (hq : c ≠ '"') (hb : c ≠ '\\') (h : Spells t cs) :
      Spells (c :: t) (some c :: cs)
  | short {e c : Char} {t : List Char} {cs : List (Option Char)}
      (he : (e, c) ∈ shortEscapes) (h : Spells t cs) :
      Spells ('\\' :: e :: t) (some c :: cs)
  | unicode {c : Char} {ds t : List Char} {cs : List (Option Char)}
      (hd : Hex4 ds c.toNat) (h : Spells t cs) :
      Spells ('\\' :: 'u' :: (ds ++ t)) (some c :: cs)
  | pair {c : Char} {ds es t : List Char} {cs : List (Option Char)}
      {high low : Nat} (hd : Hex4 ds (0xD800 + high))
      (he : Hex4 es (0xDC00 + low)) (hh : high < 0x400) (hl : low < 0x400)
      (hc : c.toNat = 0x10000 + high * 0x400 + low) (h : Spells t cs) :
      Spells ('\\' :: 'u' :: (ds ++ '\\' :: 'u' :: (es ++ t))) (some c :: cs)
  | unpaired {ds t : List Char} {cs : List (Option Char)} {half : Nat}
      (hd : Hex4 ds (0xD800 + half)) (hhalf : half < 0x800)
      (halone : half < 0x400 → ¬ LowFollows t) (h : Spells t cs) :
      Spells ('\\' :: 'u' :: (ds ++ t)) (none :: cs)

/-! ## Numbers -/

/-- Digits, of which there is one at least. -/
def IsDigits (ds : List Char) : Prop := ds ≠ [] ∧ ∀ c ∈ ds, c.isDigit = true

/-- The part after the point. -/
inductive Fraction : List Char → List Char → Prop where
  | none : Fraction [] []
  | some {ds : List Char} (h : IsDigits ds) : Fraction ('.' :: ds) ds

/-- The exponent. -/
inductive Exponent : List Char → Int → Prop where
  | none : Exponent [] 0
  | plain {e : Char} {ds : List Char} (he : e = 'e' ∨ e = 'E')
      (h : IsDigits ds) :
      Exponent (e :: ds) (Nat.ofDigitChars 10 ds 0)
  | plus {e : Char} {ds : List Char} (he : e = 'e' ∨ e = 'E')
      (h : IsDigits ds) :
      Exponent (e :: '+' :: ds) (Nat.ofDigitChars 10 ds 0)
  | minus {e : Char} {ds : List Char} (he : e = 'e' ∨ e = 'E')
      (h : IsDigits ds) :
      Exponent (e :: '-' :: ds) (-Nat.ofDigitChars 10 ds 0)

/-- The text of a number. -/
inductive SpellsNumber : List Char → Decimal → Prop where
  | mk {negative : Bool} {whole fracText fraction expText : List Char}
      {exponent : Int} (hwhole : IsDigits whole)
      (hzero : whole.head? = some '0' → whole = ['0'])
      (hfrac : Fraction fracText fraction) (hexp : Exponent expText exponent) :
      SpellsNumber
        ((if negative then ['-'] else []) ++ (whole ++ (fracText ++ expText)))
        ⟨negative, whole, fraction, exponent⟩

/-- Could a number go on with this character? -/
def continuesNumber (c : Char) : Bool :=
  c.isDigit || c == '+' || c == '-' || c == 'e' || c == 'E' || c == '.'

theorem continuesNumber_lt {c : Char} (h : continuesNumber c = true) :
    c.toNat < 128 := by
  simp only [continuesNumber, Bool.or_eq_true, beq_iff_eq] at h
  rcases h with ((((h | rfl) | rfl) | rfl) | rfl) | rfl
  · simp only [Char.isDigit, Bool.and_eq_true, decide_eq_true_eq] at h
    have hle : c.toNat ≤ 57 := h.2
    omega
  · decide
  · decide
  · decide
  · decide
  · decide

theorem continuesNumber_of_isDigit {c : Char} (h : c.isDigit = true) :
    continuesNumber c = true := by
  simp [continuesNumber, h]

theorem Fraction.continues {text ds : List Char} (h : Fraction text ds) :
    ∀ c ∈ text, continuesNumber c = true := by
  cases h with
  | none => exact List.forall_mem_nil _
  | some h =>
      exact List.forall_mem_cons.mpr
        ⟨rfl, fun c hc => continuesNumber_of_isDigit (h.2 c hc)⟩

theorem Exponent.continues {text : List Char} {n : Int} (h : Exponent text n) :
    ∀ c ∈ text, continuesNumber c = true := by
  have hletter : ∀ e, e = 'e' ∨ e = 'E' → continuesNumber e = true := by
    rintro e (rfl | rfl)
    · rfl
    · rfl
  have hdigits : ∀ ds, IsDigits ds → ∀ c ∈ ds, continuesNumber c = true :=
    fun ds h c hc => continuesNumber_of_isDigit (h.2 c hc)
  cases h with
  | none => exact List.forall_mem_nil _
  | plain he h => exact List.forall_mem_cons.mpr ⟨hletter _ he, hdigits _ h⟩
  | plus he h =>
      exact List.forall_mem_cons.mpr
        ⟨hletter _ he, List.forall_mem_cons.mpr ⟨rfl, hdigits _ h⟩⟩
  | minus he h =>
      exact List.forall_mem_cons.mpr
        ⟨hletter _ he, List.forall_mem_cons.mpr ⟨rfl, hdigits _ h⟩⟩

theorem SpellsNumber.continues {text : List Char} {d : Decimal}
    (h : SpellsNumber text d) :
    ∀ c ∈ text, continuesNumber c = true := by
  obtain @⟨negative, whole, _, _, _, _, hwhole, -, hfrac, hexp⟩ := h
  intro c hc
  rcases List.mem_append.mp hc with hc | hc
  · cases negative with
    | true => rw [List.mem_singleton.mp hc]; rfl
    | false => cases hc
  rcases List.mem_append.mp hc with hc | hc
  · exact continuesNumber_of_isDigit (hwhole.2 c hc)
  rcases List.mem_append.mp hc with hc | hc
  · exact hfrac.continues c hc
  · exact hexp.continues c hc

/-! ## `strtod` takes all of a number -/

theorem takeSign_digits {ds : List Char} (h : IsDigits ds) (rest : List Char) :
    takeSign (ds ++ rest) = (false, ds ++ rest) := by
  obtain ⟨c, u, rfl⟩ := List.exists_cons_of_ne_nil h.1
  have hc := h.2 c List.mem_cons_self
  rw [List.cons_append, takeSign, if_neg (isDigit_ne_of hc (by decide)),
    if_neg (isDigit_ne_of hc (by decide))]

theorem noDigit_nil : NoDigit [] := fun _ hc => by cases hc

theorem noDigit_cons {c : Char} {t : List Char} (h : c.isDigit = false) :
    NoDigit (c :: t) := fun d hd => by cases hd; exact h

/-- An exponent behind its letter. -/
theorem scanExponent_cons {e : Char} {s ds : List Char} {negative : Bool}
    (he : e = 'e' ∨ e = 'E') (hs : takeSign s = (negative, ds))
    (h : IsDigits ds) :
    scanExponent (e :: s) =
      (if negative then -(Nat.ofDigitChars 10 ds 0 : Int)
        else Nat.ofDigitChars 10 ds 0, []) := by
  obtain ⟨htake, hdrop⟩ := takeWhile_digits h.2 noDigit_nil
  rw [List.append_nil] at htake hdrop
  simp only [scanExponent, hs, htake, hdrop]
  rw [if_pos ⟨he, h.1⟩]

theorem scanExponent_spells {text : List Char} {n : Int} (h : Exponent text n) :
    scanExponent text = (n, []) := by
  cases h with
  | none => rfl
  | @plain e ds he h =>
      have hsign := takeSign_digits h []
      rw [List.append_nil] at hsign
      exact scanExponent_cons he hsign h
  | plus he h => exact scanExponent_cons he rfl h
  | minus he h => exact scanExponent_cons he rfl h

theorem Exponent.noDigit {text : List Char} {n : Int} (h : Exponent text n) :
    NoDigit text ∧ ∀ u, text ≠ '.' :: u := by
  have hletter : ∀ e, e = 'e' ∨ e = 'E' → e.isDigit = false ∧ e ≠ '.' := by
    rintro e (rfl | rfl)
    · decide
    · decide
  cases h with
  | none => exact ⟨noDigit_nil, fun _ h => by cases h⟩
  | plain he _ =>
      exact ⟨noDigit_cons (hletter _ he).1,
        fun _ h => (hletter _ he).2 (List.cons.inj h).1⟩
  | plus he _ =>
      exact ⟨noDigit_cons (hletter _ he).1,
        fun _ h => (hletter _ he).2 (List.cons.inj h).1⟩
  | minus he _ =>
      exact ⟨noDigit_cons (hletter _ he).1,
        fun _ h => (hletter _ he).2 (List.cons.inj h).1⟩

theorem scanFraction_spells {text fraction rest : List Char}
    (h : Fraction text fraction) (hdigit : NoDigit rest)
    (hpoint : ∀ u, rest ≠ '.' :: u) :
    scanFraction (text ++ rest) = (fraction, rest) := by
  cases h with
  | none =>
      cases rest with
      | nil => rfl
      | cons c u =>
          rw [List.nil_append, scanFraction, if_neg]
          rintro rfl
          exact hpoint u rfl
  | some h =>
      obtain ⟨htake, hdrop⟩ := takeWhile_digits h.2 hdigit
      rw [List.cons_append, scanFraction, if_pos rfl, htake, hdrop]

theorem scanDecimal_spells {text : List Char} {d : Decimal}
    (h : SpellsNumber text d) :
    scanDecimal text = some (d, []) := by
  obtain @⟨negative, whole, fracText, fraction, expText, exponent, hwhole, -,
      hfrac, hexp⟩ := h
  obtain ⟨hdigit, hpoint⟩ := hexp.noDigit
  have hsign :
      takeSign
        ((if negative then ['-'] else []) ++ (whole ++ (fracText ++ expText))) =
      (negative, whole ++ (fracText ++ expText)) := by
    cases negative with
    | true => rfl
    | false => exact takeSign_digits hwhole _
  have hrest : NoDigit (fracText ++ expText) := by
    cases hfrac with
    | none => exact hdigit
    | some _ => exact noDigit_cons rfl
  obtain ⟨htake, hdrop⟩ := takeWhile_digits hwhole.2 hrest
  unfold scanDecimal
  simp only [hsign, htake, hdrop, scanFraction_spells hfrac hdigit hpoint,
    scanExponent_spells hexp]
  rw [if_neg fun h => hwhole.1 h.1]

/-! ## The lexicon -/

theorem SpellsNumber.head {text : List Char} {d : Decimal}
    (h : SpellsNumber text d) :
    ∃ c u, text = c :: u ∧ startsNumber c = true := by
  obtain @⟨negative, whole, _, _, _, _, hwhole, -, -, -⟩ := h
  cases negative with
  | true => exact ⟨'-', _, rfl, rfl⟩
  | false =>
      obtain ⟨c, u, rfl⟩ := List.exists_cons_of_ne_nil hwhole.1
      refine ⟨c, _, rfl, ?_⟩
      rw [startsNumber, hwhole.2 c List.mem_cons_self, Bool.or_true]

/-- Strings and numbers of the standard, the numbers no longer than the
limit. -/
def lexicon (limit : Nat) : Lexicon (List (Option Char)) Decimal where
  blank := blank
  string t cs t' := ∃ body, t = '"' :: (body ++ '"' :: t') ∧ Spells body cs
  number t d t' :=
    ∃ text, t = text ++ t' ∧ SpellsNumber text d ∧ text.length ≤ limit ∧
      ∀ c ∈ t'.head?, continuesNumber c = false
  blank_le c hc := by
    simp only [blank, Bool.or_eq_true, beq_iff_eq] at hc
    rcases hc with ((rfl | rfl) | rfl) | rfl
    · decide
    · decide
    · decide
    · decide
  string_head := by
    rintro t cs t' ⟨body, rfl, -⟩
    exact ⟨_, rfl⟩
  number_head := by
    rintro t d t' ⟨text, rfl, hd, -⟩
    obtain ⟨c, u, rfl, hc⟩ := hd.head
    exact ⟨c, _, rfl, hc⟩

end GhostDataplane.Lib.Json.Standard
