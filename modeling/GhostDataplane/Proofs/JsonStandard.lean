import GhostDataplane.Lib.JsonStandard
import GhostDataplane.Lib.Utf8
import GhostDataplane.Proofs.JsonDocument

/-!
# The parser reads JSON

The language of the parser is its own, and everything that is JSON is in it but
for one thing. A text of the standard is a sequence of characters and the parser
gets the bytes of it, so the comparison is between the text and its encoding. It
is made for strings and for numbers, the rest follows from the grammar.

For a string this is where the arithmetic of `utf16_literal_to_utf8` is checked
against the encoding of the standard library, and the two readings of a string
are shown to agree: between well-formed escapes the first reading is never in
the middle of what the second takes for one. The exception is an escaped
surrogate without its partner, which the grammar allows and the parser does not
take: such a text is rejected. Another limit is in the values. A string is
returned as a C string, so that an escaped U+0000 is the end of it.

For a number the point is that the 64 bytes of `number_c_string` hold it and
that `strtod` uses all of it. What it makes of it is `round`, of which nothing
is assumed here.
-/

namespace GhostDataplane.Engine

open GhostDataplane.Lib

/-! ## The bytes of a code point -/

theorem continuation_eq (n : Nat) : (n ||| 0x80) &&& 0xBF = n % 64 + 128 := by
  have hbyte : ∀ m : Fin 256, (m.val ||| 0x80) &&& 0xBF = m.val % 64 + 128 := by
    decide +kernel
  have hand : (n ||| 0x80) &&& 0xFF = (n ||| 0x80) % 256 :=
    Nat.and_two_pow_sub_one_eq_mod _ 8
  have hor : (n ||| 0x80) % 256 = n % 256 ||| 0x80 :=
    Nat.or_mod_two_pow (n := 8)
  calc (n ||| 0x80) &&& 0xBF = (n ||| 0x80) &&& 0xFF &&& 0xBF :=
        (Nat.and_assoc _ 0xFF 0xBF).symm
    _ = (n % 256 ||| 0x80) &&& 0xBF := by rw [hand, hor]
    _ = n % 256 % 64 + 128 := hbyte ⟨n % 256, Nat.mod_lt _ (by decide)⟩
    _ = n % 64 + 128 := by omega

/-- The first byte, of what is left of the code point after the others. -/
theorem firstByte_eq {n mark bound : Nat}
    (h : ∀ m : Fin bound, (m.val ||| mark) &&& 0xFF = m.val + mark)
    (hn : n < bound) :
    (n ||| mark) &&& 0xFF = n + mark := h ⟨n, hn⟩

/-- The loop of the source and the encoding of the library write the same
bytes. -/
theorem encodeUtf8_toNat (c : Char) : encodeUtf8 c.toNat = some (utf8 c) := by
  have hmax := toNat_le_max c
  unfold encodeUtf8
  split
  · next h =>
      have hand : c.toNat &&& 0x7F = c.toNat % 128 :=
        Nat.and_two_pow_sub_one_eq_mod _ 7
      rw [utf8_of_lt h, hand, Nat.mod_eq_of_lt h, Char.ofNat_toNat]
  next h₁ =>
  simp only [encodeUtf8.mark, continuationBytes, continuation_eq, List.map_cons,
    List.map_nil, Nat.shiftRight_eq_div_pow, Nat.reducePow,
    Nat.div_div_eq_div_mul, Nat.reduceMul]
  split
  · next h₂ =>
      rw [utf8_two (by omega) h₂,
        firstByte_eq (n := c.toNat / 64)
          (show ∀ m : Fin 32, _ by decide) (by omega)]
  next h₂ =>
  split
  · next h₃ =>
      rw [utf8_three (by omega) h₃,
        firstByte_eq (n := c.toNat / 4096)
          (show ∀ m : Fin 16, _ by decide) (by omega)]
  next h₃ =>
  rw [utf8_four (by omega),
    firstByte_eq (n := c.toNat / 262144)
      (show ∀ m : Fin 8, _ by decide) (by omega)]

theorem surrogatePair_eq {high low : Nat} (hh : high < 0x400)
    (hl : low < 0x400) :
    surrogatePair (0xD800 + high) (0xDC00 + low) =
      0x10000 + high * 0x400 + low := by
  have hhigh : (0xD800 + high) &&& 0x3FF = (0xD800 + high) % 1024 :=
    Nat.and_two_pow_sub_one_eq_mod _ 10
  have hlow : (0xDC00 + low) &&& 0x3FF = (0xDC00 + low) % 1024 :=
    Nat.and_two_pow_sub_one_eq_mod _ 10
  unfold surrogatePair
  rw [hhigh, hlow, show (0xD800 + high) % 1024 = high by omega,
    show (0xDC00 + low) % 1024 = low by omega,
    ← Nat.shiftLeft_add_eq_or_of_lt hl, Nat.shiftLeft_eq]
  omega

/-! ## Strings -/

section String

variable {t out bs : List Char}

/-- Bytes that stand for themselves. -/
theorem decodes_bytes (hbs : ∀ b ∈ bs, b ≠ '\\') (ht : t ≠ []) :
    Decodes (bs ++ t) out ↔ ∃ o, Decodes t o ∧ out = bs ++ o := by
  induction bs generalizing out with
  | nil => simp
  | cons b bs ih =>
      have hrest : ∀ out, _ := fun out =>
        @ih out fun b' hb' => hbs b' (List.mem_cons_of_mem _ hb')
      obtain ⟨d, u, hu⟩ := List.exists_cons_of_ne_nil
        (List.append_ne_nil_of_right_ne_nil bs ht)
      rw [List.cons_append, hu,
        (readsAs_plain (hbs b List.mem_cons_self)).decodes out]
      simp only [List.drop_succ_cons, List.drop_zero, ← hu]
      constructor
      · rintro ⟨o, ho, rfl⟩
        obtain ⟨o', ho', rfl⟩ := (hrest o).mp ho
        exact ⟨o', ho', rfl⟩
      · rintro ⟨o, ho, rfl⟩
        exact ⟨bs ++ o, (hrest _).mpr ⟨o, ho, rfl⟩, rfl⟩

theorem splitString_bytes (hbs : ∀ b ∈ bs, b ≠ '"' ∧ b ≠ '\\') :
    splitString (bs ++ t) = (splitString t).map fun r => (bs ++ r.1, r.2) := by
  induction bs with
  | nil => simp
  | cons b bs ih =>
      obtain ⟨hq, hb⟩ := hbs b List.mem_cons_self
      rw [List.cons_append, splitString_plain hq hb,
        ih fun b' hb' => hbs b' (List.mem_cons_of_mem _ hb'), Option.map_map]
      rfl

/-- The bytes of a character are neither quotes nor backslashes if it is
none. -/
theorem utf8_ne {c b : Char} (hq : c ≠ '"') (hb : c ≠ '\\') (h : b ∈ utf8 c) :
    b ≠ '"' ∧ b ≠ '\\' := by
  rcases Nat.lt_or_ge c.toNat 128 with hc | hc
  · rw [utf8_of_lt hc, List.mem_singleton] at h
    exact h ▸ ⟨hq, hb⟩
  · have hle := le_of_mem_utf8 hc h
    exact ⟨by rintro rfl; revert hle; decide, by rintro rfl; revert hle; decide⟩

/-- A digit of an escape. -/
theorem hexDigits_spec :
    ∀ p ∈ Json.Standard.hexDigits, hexDigit p.1 = some p.2 ∧
      p.1.toNat < 128 ∧ p.1 ≠ '"' ∧ p.1 ≠ '\\' := by decide

theorem shortEscapes_spec :
    ∀ p ∈ Json.Standard.shortEscapes, simpleEscape p.1 = some p.2 ∧
      p.1.toNat < 128 ∧ p.2.toNat < 128 := by decide

/-- The four digits of an escape. -/
theorem hex4_spec {ds : List Char} {n : Nat} (h : Json.Standard.Hex4 ds n) :
    ∃ c₁ c₂ c₃ c₄, ds = [c₁, c₂, c₃, c₄] ∧ hex4 c₁ c₂ c₃ c₄ = n ∧
      utf8Text ds = ds ∧ ∀ c ∈ ds, c ≠ '"' ∧ c ≠ '\\' := by
  obtain ⟨h₁, h₂, h₃, h₄⟩ := h
  obtain ⟨hd₁, hlt₁, hne₁⟩ := hexDigits_spec _ h₁
  obtain ⟨hd₂, hlt₂, hne₂⟩ := hexDigits_spec _ h₂
  obtain ⟨hd₃, hlt₃, hne₃⟩ := hexDigits_spec _ h₃
  obtain ⟨hd₄, hlt₄, hne₄⟩ := hexDigits_spec _ h₄
  refine ⟨_, _, _, _, rfl, ?_, utf8Text_of_lt ?_, ?_⟩
  · simp only [hex4, hd₁, hd₂, hd₃, hd₄]
    omega
  · simp only [List.forall_mem_cons]
    exact ⟨hlt₁, hlt₂, hlt₃, hlt₄, List.forall_mem_nil _⟩
  · simp only [List.forall_mem_cons]
    exact ⟨hne₁, hne₂, hne₃, hne₄, List.forall_mem_nil _⟩

theorem utf8Text_escape (e : Char) (he : e.toNat < 128) (t : List Char) :
    utf8Text ('\\' :: e :: t) = '\\' :: e :: utf8Text t := by
  rw [utf8Text_cons_of_lt (by decide), utf8Text_cons_of_lt he]

/-- The first reading ends at the quote that is meant. -/
theorem splitString_spells {body : List Char} {cs : List (Option Char)}
    (h : Json.Standard.Spells body cs) (rest : List Char) :
    splitString (utf8Text body ++ '"' :: rest) =
      some (utf8Text body, rest) := by
  induction h with
  | nil => exact splitString_quote
  | @raw c t cs hc hq hb _ ih =>
      rw [show utf8Text (c :: t) = utf8 c ++ utf8Text t from rfl,
        List.append_assoc, splitString_bytes fun b hmem => utf8_ne hq hb hmem,
        ih]
      rfl
  | short he _ ih =>
      rw [utf8Text_escape _ (shortEscapes_spec _ he).2.1, List.cons_append,
        List.cons_append, splitString_escape, ih]
      rfl
  | unicode hd _ ih | unpaired hd _ _ _ ih =>
      obtain ⟨_, _, _, _, -, -, hds, hne⟩ := hex4_spec hd
      rw [utf8Text_escape _ (by decide), utf8Text_append, hds, List.cons_append,
        List.cons_append, List.append_assoc, splitString_escape,
        splitString_bytes hne, ih]
      rfl
  | pair hd he _ _ _ _ ih =>
      obtain ⟨_, _, _, _, -, -, hds, hne⟩ := hex4_spec hd
      obtain ⟨_, _, _, _, -, -, hes, hne'⟩ := hex4_spec he
      rw [utf8Text_escape _ (by decide), utf8Text_append, hds,
        utf8Text_escape _ (by decide), utf8Text_append, hes]
      simp only [List.cons_append, List.append_assoc]
      rw [splitString_escape, splitString_bytes hne, splitString_escape,
        splitString_bytes hne', ih]
      rfl

/-- The escape that comes next has the code that its characters have. -/
theorem hex4_of_utf8Text {ds t u : List Char} {n : Nat} {c₁ c₂ c₃ c₄ : Char}
    (h : Json.Standard.Hex4 ds n)
    (heq : utf8Text ('\\' :: 'u' :: (ds ++ t)) ++ ['"'] =
      '\\' :: 'u' :: c₁ :: c₂ :: c₃ :: c₄ :: u) : hex4 c₁ c₂ c₃ c₄ = n := by
  obtain ⟨d₁, d₂, d₃, d₄, rfl, hcode, hds, -⟩ := hex4_spec h
  rw [utf8Text_escape _ (by decide), utf8Text_append, hds] at heq
  simp only [List.cons_append, List.cons.injEq, true_and] at heq
  obtain ⟨rfl, rfl, rfl, rfl, -⟩ := heq
  exact hcode

/-- The second half of a pair is seen in the bytes only if it is in the text. -/
theorem lowFollows_of_utf8Text {body u : List Char} {cs : List (Option Char)}
    {c₁ c₂ c₃ c₄ : Char} (h : Json.Standard.Spells body cs)
    (heq : utf8Text body ++ ['"'] = '\\' :: 'u' :: c₁ :: c₂ :: c₃ :: c₄ :: u)
    (hlow : 0xDC00 ≤ hex4 c₁ c₂ c₃ c₄ ∧ hex4 c₁ c₂ c₃ c₄ ≤ 0xDFFF) :
    Json.Standard.LowFollows body := by
  have hfollows : ∀ {ds t n}, Json.Standard.Hex4 ds n →
      body = '\\' :: 'u' :: (ds ++ t) → Json.Standard.LowFollows body := by
    rintro ds t n hd rfl
    rw [hex4_of_utf8Text hd heq] at hlow
    obtain ⟨low, rfl⟩ := Nat.exists_eq_add_of_le hlow.1
    exact ⟨ds, low, t, rfl, hd, by omega⟩
  cases h with
  | nil => cases heq
  | @raw c t _ hc hq hb _ =>
      rw [show utf8Text (c :: t) = utf8 c ++ utf8Text t from rfl,
        List.append_assoc] at heq
      obtain ⟨b, bs, hbs⟩ := List.exists_cons_of_ne_nil
        (show utf8 c ≠ [] by simp [utf8, String.utf8EncodeChar_ne_nil])
      have hmem : b ∈ utf8 c := hbs ▸ List.mem_cons_self
      rw [hbs] at heq
      injection heq with hb'
      exact absurd hb' (utf8_ne hq hb hmem).2
  | short he _ =>
      rw [utf8Text_escape _ (shortEscapes_spec _ he).2.1] at heq
      simp only [List.cons_append, List.cons.injEq, true_and] at heq
      have hsimple : simpleEscape 'u' = some _ :=
        heq.1 ▸ (shortEscapes_spec _ he).1
      cases hsimple
  | unicode hd _ => exact hfollows hd rfl
  | pair hd _ _ _ _ _ => exact hfollows hd rfl
  | unpaired hd _ _ _ => exact hfollows hd rfl

/-- Half of a pair cannot be read. -/
theorem not_decodes_unpaired {ds t out : List Char} {cs : List (Option Char)}
    {half : Nat} (hd : Json.Standard.Hex4 ds (0xD800 + half))
    (hhalf : half < 0x800)
    (halone : half < 0x400 → ¬ Json.Standard.LowFollows t)
    (h : Json.Standard.Spells t cs) :
    ¬ Decodes (utf8Text ('\\' :: 'u' :: (ds ++ t)) ++ ['"']) out := by
  obtain ⟨c₁, c₂, c₃, c₄, rfl, hcode, hds, -⟩ := hex4_spec hd
  rw [utf8Text_escape _ (by decide), utf8Text_append, hds]
  simp only [List.cons_append, List.nil_append]
  intro hout
  obtain ⟨_, _, _, _, _, _, heq, hnot⟩ := hout.of_unicode
  simp only [List.cons.injEq] at heq
  obtain ⟨rfl, rfl, rfl, rfl, -⟩ := heq
  obtain ⟨d₁, d₂, d₃, d₄, x, u, hsecond, hlow, -⟩ :=
    hout.of_pair (by rw [hcode] at hnot ⊢; omega)
  rw [hcode] at hnot
  exact halone (by omega) (lowFollows_of_utf8Text h hsecond hlow)

/-- What is read of a text with one more character in front. -/
theorem decodes_cons_iff {c : Char} {cs : List (Option Char)} {rest : List Char}
    (hrest : ∀ out, Decodes rest out ↔
      ∃ chars, cs.allSome = some chars ∧ out = utf8Text chars)
    (out : List Char) :
    (∃ o, Decodes rest o ∧ out = utf8 c ++ o) ↔
      ∃ chars, (some c :: cs).allSome = some chars ∧ out = utf8Text chars := by
  constructor
  · rintro ⟨o, ho, rfl⟩
    obtain ⟨chars, hchars, rfl⟩ := (hrest o).mp ho
    exact ⟨c :: chars,
      Json.allSome_cons_iff.mpr ⟨c, chars, rfl, hchars, rfl⟩, rfl⟩
  · rintro ⟨_, hall, rfl⟩
    obtain ⟨_, chars, ⟨⟩, hchars, rfl⟩ := Json.allSome_cons_iff.mp hall
    exact ⟨utf8Text chars, (hrest _).mpr ⟨chars, hchars, rfl⟩, rfl⟩

/-- The second reading yields the bytes of the characters that are meant, if
there is no gap between them. -/
theorem decodes_spells {body : List Char} {cs : List (Option Char)}
    (h : Json.Standard.Spells body cs) (out : List Char) :
    Decodes (utf8Text body ++ ['"']) out ↔
      ∃ chars, cs.allSome = some chars ∧ out = utf8Text chars := by
  have hne : ∀ u : List Char, ∃ x w, u ++ ['"'] = x :: w := fun u =>
    List.exists_cons_of_ne_nil (List.append_ne_nil_of_right_ne_nil u (by simp))
  induction h generalizing out with
  | nil =>
      constructor
      · intro h
        cases h
        exact ⟨[], rfl, rfl⟩
      · rintro ⟨_, ⟨⟩, rfl⟩
        exact .close
  | @raw c t cs hc hq hb _ ih =>
      rw [show utf8Text (c :: t) = utf8 c ++ utf8Text t from rfl,
        List.append_assoc,
        decodes_bytes (fun b hmem => (utf8_ne hq hb hmem).2) (by simp)]
      exact decodes_cons_iff ih out
  | @short e c t cs he _ ih =>
      obtain ⟨hsimple, hlt, hlt'⟩ := shortEscapes_spec _ he
      rw [utf8Text_escape _ hlt, ← decodes_cons_iff ih out, utf8_of_lt hlt']
      exact (readsAs_simple hsimple).decodes out
  | @unicode c ds t cs hd _ ih =>
      obtain ⟨c₁, c₂, c₃, c₄, rfl, hcode, hds, -⟩ := hex4_spec hd
      rw [utf8Text_escape _ (by decide), utf8Text_append, hds,
        ← decodes_cons_iff ih out]
      obtain ⟨x, w, hx⟩ := hne (utf8Text t)
      simp only [List.cons_append, List.nil_append, hx]
      have hbytes := encodeUtf8_toNat c
      have hlt := hex4_lt c₁ c₂ c₃ c₄
      rw [← hcode] at hbytes
      have hlen := (length_encodeUtf8 hbytes).2 hlt
      refine (readsAs_unicode ?_ hbytes hlen).decodes out
      rw [hcode]
      rcases c.valid with h | h
      · exact fun h' => absurd (Nat.lt_of_lt_of_le h h'.1) (Nat.lt_irrefl _)
      · exact fun h' => absurd (Nat.lt_of_lt_of_le h.1 h'.2) (Nat.lt_irrefl _)
  | @pair c ds es t cs high low hd he hh hl hc _ ih =>
      obtain ⟨c₁, c₂, c₃, c₄, rfl, hcode, hds, -⟩ := hex4_spec hd
      obtain ⟨d₁, d₂, d₃, d₄, rfl, hcode', hes, -⟩ := hex4_spec he
      rw [utf8Text_escape _ (by decide), utf8Text_append, hds,
        utf8Text_escape _ (by decide), utf8Text_append, hes,
        ← decodes_cons_iff ih out]
      obtain ⟨x, w, hx⟩ := hne (utf8Text t)
      simp only [List.cons_append, List.nil_append, hx]
      have hbytes := encodeUtf8_toNat c
      rw [hc, ← surrogatePair_eq hh hl, ← hcode, ← hcode'] at hbytes
      have hlen := (length_encodeUtf8 hbytes).1
      exact (readsAs_pair (by rw [hcode]; omega) (by rw [hcode']; omega) hbytes
        (by omega)).decodes out
  | unpaired hd hhalf halone h _ =>
      constructor
      · intro hout
        exact absurd hout (not_decodes_unpaired hd hhalf halone h)
      · rintro ⟨_, hall, -⟩
        obtain ⟨_, _, ⟨⟩, -⟩ := Json.allSome_cons_iff.mp hall

end String

/-! ## Numbers -/

theorem isNumberChar_utf8Text {t : List Char}
    (h : ∀ c ∈ t.head?, Json.Standard.continuesNumber c = false) :
    ∀ b ∈ (utf8Text t).head?, isNumberChar b = false := by
  intro b hb
  cases t with
  | nil => cases hb
  | cons c t =>
      have hc : isNumberChar c = false := h c rfl
      rcases Nat.lt_or_ge c.toNat 128 with hlt | hge
      · rw [utf8Text_cons_of_lt hlt] at hb
        cases hb
        exact hc
      · have hmem : b ∈ utf8 c := by
          rw [show utf8Text (c :: t) = utf8 c ++ utf8Text t from rfl] at hb
          obtain ⟨d, u, hu⟩ := List.exists_cons_of_ne_nil
            (show utf8 c ≠ [] by simp [utf8, String.utf8EncodeChar_ne_nil])
          rw [hu] at hb ⊢
          cases hb
          exact List.mem_cons_self
        have hle := le_of_mem_utf8 hge hmem
        rw [Bool.eq_false_iff]
        intro hnum
        have hlt := Json.Standard.continuesNumber_lt hnum
        omega

/-- All of a number is copied, and nothing after it. -/
theorem numberRun_spells {text t : List Char} {d : Lib.Decimal}
    (h : Json.Standard.SpellsNumber text d)
    (hlen : text.length ≤ numberCStringSize - 1)
    (ht : ∀ c ∈ t.head?, Json.Standard.continuesNumber c = false) :
    numberRun (text ++ utf8Text t) = text := by
  have hnum := isNumberChar_utf8Text ht
  have htail : (utf8Text t).takeWhile isNumberChar = [] := by
    cases hu : utf8Text t with
    | nil => rfl
    | cons b u =>
        rw [hu] at hnum
        exact List.takeWhile_cons_of_neg (Bool.eq_false_iff.mp (hnum b rfl))
  have hall : ∀ c ∈ text, isNumberChar c = true := h.continues
  rw [numberRun, List.takeWhile_append_of_pos hall, htail, List.append_nil,
    List.take_of_length_le hlen]

/-! ## JSON -/

/-- The tokens of the standard, with the numbers that fit `number_c_string`. -/
def standardLexicon : Json.Lexicon (List (Option Char)) Lib.Decimal :=
  Json.Standard.lexicon (numberCStringSize - 1)

/-- What the engine has for a string of the standard: the bytes of its
characters, up to the first NUL. For half of a pair of surrogates it has
nothing. -/
def standardString (cs : List (Option Char)) : Option CString :=
  cs.allSome.map fun chars => CString.ofBuffer (utf8Text chars ++ [nul])

/-- The value that the engine has for one of the standard, if it has a string
for each of its strings. -/
def standardValues (round : Rat → Double) :
    Json.Values (List (Option Char)) Lib.Decimal (Option CJson) :=
  values.partly standardString fun d => round d.value

theorem standard_embeds (round : Rat → Double) :
    standardLexicon.Embeds (lexicon round) utf8Text standardString
      fun d => round d.value where
  nil := rfl
  ascii c t hc := utf8Text_cons_of_lt hc t
  blank c hc := decide_eq_true (standardLexicon.blank_le c hc)
  string := by
    rintro t cs t' ⟨body, rfl, hspells⟩ s u
    have hsplit : splitString (utf8Text (body ++ '"' :: t')) =
        some (utf8Text body, utf8Text t') := by
      rw [utf8Text_append, utf8Text_cons_of_lt (by decide)]
      exact splitString_spells hspells _
    rw [utf8Text_cons_of_lt (by decide)]
    constructor
    · rintro ⟨_, body', out, heq, hsplit', hout, rfl⟩
      cases heq
      rw [hsplit] at hsplit'
      cases hsplit'
      obtain ⟨chars, hall, rfl⟩ := (decodes_spells hspells out).mp hout
      exact ⟨by rw [standardString, hall]; rfl, rfl⟩
    · rintro ⟨hs, rfl⟩
      obtain ⟨chars, hall, rfl⟩ := Option.map_eq_some_iff.mp hs
      exact ⟨_, _, _, rfl, hsplit,
        (decodes_spells hspells _).mpr ⟨chars, hall, rfl⟩, rfl⟩
  number := by
    rintro t d t' ⟨text, rfl, hspells, hlen, hnext⟩ x u
    obtain ⟨c, w, hc, hstart⟩ := hspells.head
    have htext : utf8Text (text ++ t') = text ++ utf8Text t' := by
      rw [utf8Text_append, utf8Text_of_lt fun c hc =>
        Json.Standard.continuesNumber_lt (hspells.continues c hc)]
    have hread : strtod round (numberRun (text ++ utf8Text t')) =
        some (round d.value, text.length) := by
      rw [numberRun_spells hspells hlen hnext]
      simp [strtod, Json.Standard.scanDecimal_spells hspells]
    rw [htext]
    constructor
    · rintro ⟨_, _, length, -, -, hread', rfl⟩
      rw [hread] at hread'
      cases hread'
      exact ⟨rfl, List.drop_left⟩
    · rintro ⟨rfl, rfl⟩
      exact ⟨c, w ++ utf8Text t', text.length, by rw [hc]; rfl, hstart, hread,
        List.drop_left.symm⟩

/-- A text of the standard: a value with white space around it, nested no deeper
than the limit. -/
def StandardDocument (round : Rat → Double) (t : List Char) (v : Option CJson) :
    Prop :=
  ∃ t', Json.Value standardLexicon (standardValues round) nestingLimit
    (standardLexicon.skip t) v t' ∧ standardLexicon.skip t' = []

/-- A text that begins with a token or white space has no byte order mark. -/
theorem withoutBom_utf8Text {text u : List Char} {c : Char}
    (h : standardLexicon.skip text = c :: u) (hc : Json.IsToken c) :
    withoutBom (utf8Text text) = utf8Text text := by
  refine if_neg fun hbom => ?_
  cases text with
  | nil => cases h
  | cons d t =>
      have hlt : d.toNat < 128 := by
        by_cases hd : standardLexicon.blank d = true
        · have hle := standardLexicon.blank_le d hd
          omega
        · rw [Json.Lexicon.skip, List.dropWhile_cons_of_neg hd] at h
          cases h
          exact hc.2
      rw [utf8Text_cons_of_lt hlt] at hbom
      obtain ⟨w, hw⟩ := List.isPrefixOf_iff_prefix.mp hbom.1
      injection hw with hd
      subst hd
      exact absurd hlt (by decide)

/-- The parser takes the text for this value and no other. -/
theorem StandardDocument.accepts_iff {round : Rat → Double} {text : List Char}
    {v : Option CJson} (h : StandardDocument round text v) (req : Bool)
    (w : CJson) :
    Accepts round req (utf8Text text) w ↔ v = some w := by
  obtain ⟨t', hv, hend⟩ := h
  obtain ⟨c, u, hc, htoken, -⟩ := hv.head
  have hembed := standard_embeds round
  have hdoc : ∀ t'', JsonDocument round (utf8Text text) w t'' ↔
      v = some w ∧ t'' = utf8Text t' := by
    intro t''
    unfold JsonDocument
    rw [withoutBom_utf8Text hc htoken, hembed.skip hc htoken,
      ← utf8Text_cons_of_lt htoken.2, ← hc]
    exact hv.embed hembed w t''
  constructor
  · rintro ⟨t'', hread, -⟩
    exact ((hdoc t'').mp hread).1
  · rintro rfl
    exact ⟨_, (hdoc _).mpr ⟨rfl, rfl⟩, fun _ => hembed.skip_nil hend⟩

/-- A JSON text within the limits of the parser is accepted for the value that
it denotes, where strings end at U+0000. If half of a surrogate pair is escaped
in one of its strings there is no such value, and the text is rejected. -/
theorem cJSONParse_standard (round : Rat → Double) (text : List Char)
    (v : Option CJson) (hdoc : StandardDocument round text v) (value : CString)
    (hvalue : value.chars = utf8Text text) (requireNullTerminated : Bool)
    (heap : Heap) (hgrants : ∀ i, heap.grants i = true) :
    (∀ w, v = some w → ∃ item heap', cJSONParseWithOpts round value
      requireNullTerminated heap = .ok (.ok item, heap') ∧ Carries item w) ∧
    (v = none → ∃ position heap', cJSONParseWithOpts round value
      requireNullTerminated heap = .ok (.error position, heap')) := by
  have haccepts := hvalue ▸ hdoc.accepts_iff requireNullTerminated
  obtain ⟨r, heap', hr, hpost⟩ :=
    cJSONParseWithOpts_spec round value requireNullTerminated heap
  cases r with
  | error position =>
      rcases hpost.2.2 with hrefused | hno
      · exact absurd hrefused (Heap.not_refused hgrants)
      · exact ⟨fun w hw => absurd ((haccepts w).mpr hw) (hno w),
          fun _ => ⟨position, heap', hr⟩⟩
  | ok item =>
      obtain ⟨w, hw, hcarries, -⟩ := hpost
      rw [(haccepts w).mp hw]
      refine ⟨fun w' hw' => ?_, fun hnone => by cases hnone⟩
      cases hw'
      exact ⟨item, heap', hr, hcarries⟩

/-- `["\\u00e9"]`, which is two bytes, is read; `["\\ud83d"]` is not. -/
theorem cJSONParse_standard_escape :
    (∃ item heap', cJSONParseWithOpts Double.finite
        ⟨['[', '"', '\\', 'u', '0', '0', 'e', '9', '"', ']'], by decide⟩ true
        (Heap.start fun _ => true) = .ok (.ok item, heap') ∧
      Carries item
        (.array [.string ⟨[Char.ofNat 0xC3, Char.ofNat 0xA9], by decide⟩])) ∧
    ∃ position heap', cJSONParseWithOpts Double.finite
        ⟨['[', '"', '\\', 'u', 'd', '8', '3', 'd', '"', ']'], by decide⟩ true
        (Heap.start fun _ => true) = .ok (.error position, heap') := by
  have hone : ∀ {body : List Char} {cs : List (Option Char)},
      Json.Standard.Spells body cs →
      StandardDocument Double.finite ('[' :: '"' :: (body ++ ['"', ']']))
        ([(standardString cs).map CJson.string].allSome.map CJson.array) := by
    intro body cs hbody
    exact ⟨[], Json.Value.array_iff.mpr ⟨_, rfl, .inr (.last ⟨[']'],
      Json.Atom.toValue (.string ⟨body, rfl, hbody⟩), rfl⟩)⟩, rfl⟩
  have hletter : Json.Standard.Hex4 ['0', '0', 'e', '9']
      (((0 * 16 + 0) * 16 + 14) * 16 + 9) :=
    .mk (by decide) (by decide) (by decide) (by decide)
  have hbody :
      Json.Standard.Spells ('\\' :: 'u' :: (['0', '0', 'e', '9'] ++ []))
        [some (Char.ofNat 0xE9)] := .unicode hletter .nil
  have hhigh : Json.Standard.Hex4 ['d', '8', '3', 'd']
      (((13 * 16 + 8) * 16 + 3) * 16 + 13) :=
    .mk (by decide) (by decide) (by decide) (by decide)
  have hhalf :
      Json.Standard.Spells ('\\' :: 'u' :: (['d', '8', '3', 'd'] ++ []))
        [none] := by
    refine .unpaired (show Json.Standard.Hex4 _ (0xD800 + 0x3d) from hhigh)
      (by decide) (fun _ hlow => ?_) .nil
    obtain ⟨_, _, _, hnil, -⟩ := hlow
    cases hnil
  exact ⟨(cJSONParse_standard _ _ _ (hone hbody) _ (by decide) true _
      fun _ => rfl).1 _ rfl,
    (cJSONParse_standard _ _ _ (hone hhalf) _ (by decide) true _
      fun _ => rfl).2 rfl⟩

end GhostDataplane.Engine
