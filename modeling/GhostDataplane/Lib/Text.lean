import Mathlib.Data.List.TakeWhile
import Mathlib.Data.List.Basic

/-!
# Texts of C, and the numbers in them

A string of C is a list of characters without NUL. `sscanf` and `snprintf`
are driven by a format, here one of two kinds of directive: an ordinary
character, which stands for itself, and `%u`.

What `%u` takes is more than a run of digits. It skips white space, takes a
sign and then as many digits as there are, and asks nothing about what comes
next: `Numeral.Spells` is the language of one such item, and `Reads` puts the
items of a format together. The functions below run the format over a text;
`scan_of_reads` and `reads_of_scan` say that they run to the end exactly on
the texts that begin with something the format reads.

A number that the target type cannot hold has no value in the standard, and
`Numeral.value` asks the environment for one.

`reads_sprint` is the round trip. It needs formats in which nothing that could
be taken for a digit follows a `%u`.
-/

namespace GhostDataplane.Lib

/-! ## Strings -/

/-- The character that ends a string. -/
def nul : Char := Char.ofNat 0

/-- What a pointer to a string points to, without the NUL at its end. -/
structure CString where
  chars : List Char
  noNul : nul ∉ chars
deriving DecidableEq

/-- The string at the beginning of a buffer. -/
def CString.ofBuffer (buf : List Char) : CString where
  chars := buf.takeWhile (· ≠ nul)
  noNul h := by simpa using List.mem_takeWhile_imp h

theorem CString.ofBuffer_append (s : CString) (rest : List Char) :
    CString.ofBuffer (s.chars ++ nul :: rest) = s := by
  obtain ⟨chars, h⟩ := s
  have hall : ∀ c ∈ chars, decide (c ≠ nul) = true := by
    intro c hc
    exact decide_eq_true fun heq => h (heq ▸ hc)
  have htake : (chars ++ nul :: rest).takeWhile (· ≠ nul) = chars := by
    rw [List.takeWhile_append_of_pos hall]
    simp
  simp only [CString.ofBuffer, htake]

/-- A NUL that the text has itself ends the string early. -/
theorem CString.ofBuffer_length_le (text : List Char) :
    (CString.ofBuffer (text ++ [nul])).chars.length ≤ text.length := by
  dsimp only [CString.ofBuffer]
  induction text with
  | nil => simp
  | cons c text ih =>
      rw [List.cons_append, List.takeWhile_cons]
      split
      · exact Nat.succ_le_succ ih
      · exact Nat.zero_le _

/-- `snprintf`: what is in the buffer afterwards, if it is not empty. -/
def snprintf (size : Nat) (text : List Char) : List Char :=
  text.take (size - 1) ++ [nul]

theorem snprintf_of_fits {size : Nat} {text : List Char}
    (h : text.length < size) : snprintf size text = text ++ [nul] := by
  rw [snprintf, List.take_of_length_le (by omega)]

/-! ## One number -/

/-- `isspace`, in the C locale. -/
def isSpace (c : Char) : Bool := c == ' ' || ('\t' ≤ c && c ≤ '\r')

/-- A decimal number with its sign. -/
structure Numeral where
  negative : Bool
  digits : List Char
  nonempty : digits ≠ []
  decimal : ∀ c ∈ digits, c.isDigit = true

/-- The magnitude. -/
def Numeral.magnitude (n : Numeral) : Nat := Nat.ofDigitChars 10 n.digits 0

/-- What is stored for a number in an unsigned type that ends below `limit`.
A negative number is negated in that type. -/
def Numeral.value (limit : Nat) (unrepresentable : Numeral → Nat)
    (n : Numeral) : Nat :=
  if n.magnitude < limit then
    if n.negative then (limit - n.magnitude) % limit else n.magnitude
  else unrepresentable n

/-- The signs that can stand before the digits. -/
def Numeral.signs (n : Numeral) : List (List Char) :=
  if n.negative then [['-']] else [[], ['+']]

/-- The text is an item that `%u` takes for this number. -/
def Numeral.Spells (n : Numeral) (text : List Char) : Prop :=
  ∃ blanks sign, (∀ c ∈ blanks, isSpace c = true) ∧ sign ∈ n.signs ∧
    text = blanks ++ (sign ++ n.digits)

/-- The number as `%u` prints it. -/
def Numeral.ofNat (v : Nat) : Numeral where
  negative := false
  digits := Nat.toDigits 10 v
  nonempty := Nat.toDigits_ne_nil
  decimal _ hc := Nat.isDigit_of_mem_toDigits (by decide) (by decide) hc

theorem Numeral.ofNat_spells (v : Nat) :
    (Numeral.ofNat v).Spells (Nat.toDigits 10 v) :=
  ⟨[], [], List.forall_mem_nil _, List.mem_cons_self, rfl⟩

theorem Numeral.value_of_lt {limit : Nat} {unrepresentable : Numeral → Nat}
    {n : Numeral} (hn : n.negative = false) (h : n.magnitude < limit) :
    n.value limit unrepresentable = n.magnitude := by
  rw [Numeral.value, if_pos h, hn]
  rfl

theorem Numeral.value_ofNat {limit v : Nat} {unrepresentable : Numeral → Nat}
    (h : v < limit) : (Numeral.ofNat v).value limit unrepresentable = v := by
  have hmag : (Numeral.ofNat v).magnitude = v := Nat.ofDigitChars_ten_toDigits
  rw [Numeral.value_of_lt rfl (hmag.symm ▸ h), hmag]

def takeSign : List Char → Bool × List Char
  | [] => (false, [])
  | c :: s =>
      if c = '-' then (true, s) else if c = '+' then (false, s)
      else (false, c :: s)

/-- One `%u`: the number, and what is left of the text. -/
def scanNumeral (s : List Char) : Option (Numeral × List Char) :=
  let (negative, s) := takeSign (s.dropWhile isSpace)
  if h : s.takeWhile Char.isDigit = [] then none
  else some (⟨negative, _, h, fun _ hc => List.mem_takeWhile_imp hc⟩,
    s.dropWhile Char.isDigit)

/-- The text does not go on with a digit. -/
def NoDigit (s : List Char) : Prop := ∀ c ∈ s.head?, c.isDigit = false

theorem noDigit_dropWhile (s : List Char) :
    NoDigit (s.dropWhile Char.isDigit) := by
  intro c hc
  have h := List.head?_dropWhile_not Char.isDigit s
  rw [Option.mem_def.mp hc] at h
  simpa using h

theorem takeSign_cases (s : List Char) :
    ∃ sign, s = sign ++ (takeSign s).2 ∧
      sign ∈ (if (takeSign s).1 then [['-']] else [[], ['+']]) := by
  unfold takeSign
  split
  · exact ⟨[], rfl, by simp⟩
  · split
    · next h => exact ⟨['-'], by simp [h], by simp⟩
    · split
      · next h => exact ⟨['+'], by simp [h], by simp⟩
      · exact ⟨[], rfl, by simp⟩

theorem scanNumeral_spells {s rest : List Char} {n : Numeral}
    (h : scanNumeral s = some (n, rest)) :
    ∃ text, n.Spells text ∧ NoDigit rest ∧ s = text ++ rest := by
  unfold scanNumeral at h
  simp only at h
  split at h
  · cases h
  · cases h
    obtain ⟨sign, hs, hsign⟩ := takeSign_cases (s.dropWhile isSpace)
    refine ⟨_, ⟨s.takeWhile isSpace, sign, ?_, hsign, rfl⟩,
      noDigit_dropWhile _, ?_⟩
    · exact fun c hc => List.mem_takeWhile_imp hc
    · rw [List.append_assoc, List.append_assoc, List.takeWhile_append_dropWhile,
        ← hs, List.takeWhile_append_dropWhile]

theorem isDigit_ne_of {c d : Char} (hc : c.isDigit = true)
    (hd : d.isDigit = false) : c ≠ d := by
  rintro rfl
  rw [hc] at hd
  cases hd

theorem isSpace_of_isDigit {c : Char} (h : c.isDigit = true) :
    isSpace c = false := by
  have hle : '0' ≤ c := by
    simp only [Char.isDigit, Bool.and_eq_true, decide_eq_true_eq] at h
    exact h.1
  have hne : c ≠ ' ' := isDigit_ne_of h (by decide)
  have hlt : ¬ c ≤ '\r' := fun hcr => absurd (Char.le_trans hle hcr) (by decide)
  simp [isSpace, hne, hlt]

/-- Neither a sign nor a digit is white space. -/
theorem dropWhile_isSpace_sign {n : Numeral} {sign : List Char}
    (hsign : sign ∈ n.signs) (rest : List Char) :
    (sign ++ (n.digits ++ rest)).dropWhile isSpace =
      sign ++ (n.digits ++ rest) := by
  obtain ⟨c, cs, hdigits⟩ := List.exists_cons_of_ne_nil n.nonempty
  have hc : isSpace c = false :=
    isSpace_of_isDigit (n.decimal c (hdigits ▸ List.mem_cons_self))
  have hminus : isSpace '-' = false := by decide
  have hplus : isSpace '+' = false := by decide
  unfold Numeral.signs at hsign
  split at hsign
  · cases List.mem_singleton.mp hsign
    simp [hminus]
  · rcases List.mem_cons.mp hsign with rfl | hsign
    · simp [hdigits, hc]
    · cases List.mem_singleton.mp hsign
      simp [hplus]

theorem takeSign_sign {n : Numeral} {sign : List Char}
    (hsign : sign ∈ n.signs) (rest : List Char) :
    takeSign (sign ++ (n.digits ++ rest)) = (n.negative, n.digits ++ rest) := by
  obtain ⟨c, cs, hdigits⟩ := List.exists_cons_of_ne_nil n.nonempty
  have hdigit := n.decimal c (hdigits ▸ List.mem_cons_self)
  have hminus : c ≠ '-' := isDigit_ne_of hdigit (by decide)
  have hplus : c ≠ '+' := isDigit_ne_of hdigit (by decide)
  unfold Numeral.signs at hsign
  split at hsign
  · next hneg =>
      cases List.mem_singleton.mp hsign
      simp [takeSign, hneg]
  · next hneg =>
      rcases List.mem_cons.mp hsign with rfl | hsign
      · simp [takeSign, hdigits, hminus, hplus, hneg]
      · cases List.mem_singleton.mp hsign
        simp [takeSign, hneg]

theorem takeWhile_digits {digits rest : List Char}
    (hdigits : ∀ c ∈ digits, c.isDigit = true) (hrest : NoDigit rest) :
    (digits ++ rest).takeWhile Char.isDigit = digits ∧
      (digits ++ rest).dropWhile Char.isDigit = rest := by
  rw [List.takeWhile_append_of_pos hdigits,
    List.dropWhile_append_of_pos hdigits]
  cases rest with
  | nil => simp
  | cons c rest => simp [hrest c rfl]

theorem scanNumeral_of_spells {text rest : List Char} {n : Numeral}
    (h : n.Spells text) (hrest : NoDigit rest) :
    scanNumeral (text ++ rest) = some (n, rest) := by
  obtain ⟨blanks, sign, hblanks, hsign, rfl⟩ := h
  obtain ⟨htake, hdrop⟩ := takeWhile_digits n.decimal hrest
  unfold scanNumeral
  rw [List.append_assoc, List.append_assoc,
    List.dropWhile_append_of_pos hblanks, dropWhile_isSpace_sign hsign,
    takeSign_sign hsign]
  simp only [htake, hdrop, dif_neg n.nonempty]

/-! ## Formats -/

/-- A directive of a format. -/
inductive Directive where
  | ordinary (c : Char)
  | unsigned
deriving DecidableEq

/-- The number of conversions in a format. -/
def conversions : List Directive → Nat
  | [] => 0
  | .ordinary _ :: fmt => conversions fmt
  | .unsigned :: fmt => conversions fmt + 1

/-- Why the scan of a text is over. -/
inductive Stop where
  | done
  | mismatch
  | inputEnd
deriving DecidableEq

/-- The values that the format converts, and why it does not go on. -/
def scan (value : Numeral → Nat) : List Directive → List Char → List Nat × Stop
  | [], _ => ([], .done)
  | .ordinary _ :: _, [] => ([], .inputEnd)
  | .ordinary c :: fmt, d :: s =>
      if d = c then scan value fmt s else ([], .mismatch)
  | .unsigned :: fmt, s =>
      match scanNumeral s with
      | some (n, rest) =>
          let (values, stop) := scan value fmt rest
          (value n :: values, stop)
      | none =>
          ([], if (s.dropWhile isSpace).isEmpty then .inputEnd else .mismatch)

/-- `EOF`. -/
def eof : Int := -1

/-- `sscanf`: what it returns, and the values that it stores. -/
def sscanf (value : Numeral → Nat) (s : CString) (fmt : List Directive) :
    Int × List Nat :=
  let (values, stop) := scan value fmt s.chars
  (if values.isEmpty && stop = .inputEnd then eof else values.length, values)

/-- What `printf` makes of the format. -/
def sprint : List Directive → List Nat → List Char
  | .ordinary c :: fmt, vs => c :: sprint fmt vs
  | .unsigned :: fmt, v :: vs => Nat.toDigits 10 v ++ sprint fmt vs
  | _, _ => []

/-- The text begins with something that the format reads, as these numbers. -/
inductive Reads : List Directive → List Char → List Numeral → Prop where
  | nil {s : List Char} : Reads [] s []
  | ordinary {c : Char} {fmt : List Directive} {s : List Char}
      {ns : List Numeral} (h : Reads fmt s ns) :
      Reads (.ordinary c :: fmt) (c :: s) ns
  | unsigned {fmt : List Directive} {text s : List Char} {n : Numeral}
      {ns : List Numeral} (hn : n.Spells text) (hs : NoDigit s)
      (h : Reads fmt s ns) : Reads (.unsigned :: fmt) (text ++ s) (n :: ns)

section Scan

variable {value : Numeral → Nat} {fmt : List Directive} {s : List Char}
  {ns : List Numeral}

theorem scan_of_reads (h : Reads fmt s ns) :
    scan value fmt s = (ns.map value, .done) := by
  induction h with
  | nil => simp [scan]
  | ordinary _ ih => simp only [scan, if_true, ih]
  | unsigned hn hs _ ih =>
      simp only [scan, scanNumeral_of_spells hn hs, ih, List.map_cons]

theorem reads_of_scan (h : (scan value fmt s).2 = .done) :
    ∃ ns, Reads fmt s ns := by
  induction fmt generalizing s with
  | nil => exact ⟨[], .nil⟩
  | cons d fmt ih =>
      cases d with
      | ordinary c =>
          cases s with
          | nil => cases h
          | cons e s =>
              rw [scan] at h
              split at h
              · next heq =>
                  obtain ⟨ns, hns⟩ := ih h
                  exact ⟨ns, heq ▸ .ordinary hns⟩
              · cases h
      | unsigned =>
          rw [scan] at h
          split at h
          · next n rest hscan =>
              obtain ⟨text, hn, hrest, rfl⟩ := scanNumeral_spells hscan
              obtain ⟨ns, hns⟩ := ih h
              exact ⟨n :: ns, .unsigned hn hrest hns⟩
          · split at h <;> cases h

theorem conversions_pos (hlast : fmt.getLast? = some .unsigned) :
    0 < conversions fmt := by
  induction fmt with
  | nil => cases hlast
  | cons d fmt ih =>
      cases d with
      | unsigned => exact Nat.succ_pos _
      | ordinary c =>
          cases fmt with
          | nil => cases hlast
          | cons e fmt => exact ih (List.getLast?_cons_cons ▸ hlast)

/-- Where the last directive is a conversion, the number of conversions tells
whether the format was read to its end. -/
theorem scan_length_iff (hlast : fmt.getLast? = some .unsigned) :
    (scan value fmt s).1.length = conversions fmt ↔
      (scan value fmt s).2 = .done := by
  have hpos := conversions_pos hlast
  induction fmt generalizing s with
  | nil => cases hlast
  | cons d fmt ih =>
      -- What follows the first directive is empty or ends in a conversion too.
      have hrest : fmt ≠ [] → fmt.getLast? = some .unsigned := by
        intro hne
        obtain ⟨e, fmt, rfl⟩ := List.exists_cons_of_ne_nil hne
        exact List.getLast?_cons_cons ▸ hlast
      cases d with
      | ordinary c =>
          have hne : fmt ≠ [] := by
            rintro rfl
            cases hlast
          cases s with
          | nil => simp [scan, hpos.ne]
          | cons e s =>
              rw [scan]
              split
              · exact ih (hrest hne) hpos
              · simp [hpos.ne]
      | unsigned =>
          rw [scan]
          split
          · next n rest _ =>
              by_cases hne : fmt = []
              · subst hne
                simp [scan, conversions]
              · have hih := ih (s := rest) (hrest hne)
                  (conversions_pos (hrest hne))
                simpa [conversions] using hih
          · split <;> simp [conversions]

theorem scan_done_iff :
    (scan value fmt s).2 = .done ↔ ∃ ns, Reads fmt s ns := by
  constructor
  · exact reads_of_scan
  · rintro ⟨ns, h⟩
    rw [scan_of_reads h]

/-- `sscanf` counts all the conversions exactly on the texts that the format
reads. -/
theorem sscanf_ret_iff {str : CString} (hlast : fmt.getLast? = some .unsigned) :
    (sscanf value str fmt).1 = conversions fmt ↔
      ∃ ns, Reads fmt str.chars ns := by
  rw [← scan_done_iff, ← scan_length_iff hlast]
  unfold sscanf
  simp only
  split
  · next h =>
      simp only [Bool.and_eq_true, List.isEmpty_iff, decide_eq_true_eq] at h
      have hpos := conversions_pos hlast
      rw [h.1, List.length_nil, eof]
      omega
  · exact Int.natCast_inj

theorem sscanf_values {str : CString} (h : Reads fmt str.chars ns) :
    (sscanf value str fmt).2 = ns.map value := by
  simp only [sscanf, scan_of_reads h]

end Scan

/-! ## Printing and scanning -/

/-- What follows a conversion cannot be taken for a digit. -/
def Separated : List Directive → Prop
  | [] => True
  | .ordinary _ :: fmt => Separated fmt
  | .unsigned :: fmt =>
      (∀ d ∈ fmt.head?, ∃ c, d = .ordinary c ∧ c.isDigit = false) ∧
        Separated fmt

theorem noDigit_sprint {fmt : List Directive} {vs : List Nat}
    (h : ∀ d ∈ fmt.head?, ∃ c, d = .ordinary c ∧ c.isDigit = false) :
    NoDigit (sprint fmt vs) := by
  cases fmt with
  | nil => simp [sprint, NoDigit]
  | cons d fmt =>
      obtain ⟨c, rfl, hc⟩ := h d rfl
      intro e he
      rw [sprint, List.head?_cons, Option.mem_def, Option.some_inj] at he
      exact he ▸ hc

/-- Nothing is printed but digits and the format's own characters. -/
theorem mem_sprint {fmt : List Directive} {vs : List Nat} {c : Char}
    (h : c ∈ sprint fmt vs) : c.isDigit = true ∨ .ordinary c ∈ fmt := by
  fun_induction sprint fmt vs with
  | case1 d fmt vs ih =>
      rcases List.mem_cons.mp h with rfl | h
      · exact Or.inr List.mem_cons_self
      · exact (ih h).imp_right (List.mem_cons_of_mem _)
  | case2 fmt v vs ih =>
      rcases List.mem_append.mp h with h | h
      · exact Or.inl (Nat.isDigit_of_mem_toDigits (by decide) (by decide) h)
      · exact (ih h).imp_right (List.mem_cons_of_mem _)
  | case3 => cases h

/-- A format reads what it printed. -/
theorem reads_sprint {fmt : List Directive} {vs : List Nat}
    (hfmt : Separated fmt) (hlen : vs.length = conversions fmt) :
    Reads fmt (sprint fmt vs) (vs.map Numeral.ofNat) := by
  induction fmt generalizing vs with
  | nil =>
      cases List.length_eq_zero_iff.mp hlen
      exact .nil
  | cons d fmt ih =>
      cases d with
      | ordinary c =>
          rw [sprint]
          exact .ordinary (ih hfmt hlen)
      | unsigned =>
          cases vs with
          | nil => cases hlen
          | cons v vs =>
              rw [sprint, List.map_cons]
              exact .unsigned (Numeral.ofNat_spells v) (noDigit_sprint hfmt.1)
                (ih hfmt.2 (Nat.succ.inj hlen))

end GhostDataplane.Lib
