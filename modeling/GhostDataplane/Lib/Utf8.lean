import GhostDataplane.Lib.Text

/-!
# UTF-8

The bytes of a text. Here a byte is a character below 256, since that is what
the characters of a string of C are. The encoding itself is the one of the
standard library; what is added is what one has to know to look for ASCII in
encoded text. A character below 128 is its own byte, and in the bytes of any
other there is none below 128.
-/

namespace GhostDataplane.Lib

/-- The bytes of a character. -/
def utf8 (c : Char) : List Char :=
  (String.utf8EncodeChar c).map fun b => Char.ofNat b.toNat

/-- The bytes of a text. -/
def utf8Text (t : List Char) : List Char := t.flatMap utf8

theorem toNat_ofNat_of_lt {n : Nat} (h : n < 256) :
    (Char.ofNat n).toNat = n := by
  rw [Char.ofNat, dif_pos (.inl (by omega))]
  rfl

theorem ofNat_byte {n : Nat} (h : n < 256) :
    Char.ofNat (UInt8.ofNat n).toNat = Char.ofNat n := by
  rw [UInt8.toNat_ofNat', Nat.mod_eq_of_lt h]

section Lengths

variable {c : Char}

theorem utf8_of_lt (h : c.toNat < 128) : utf8 c = [c] := by
  have hle : c.val.toNat ≤ 127 := Nat.le_of_lt_succ h
  simp only [utf8, String.utf8EncodeChar, if_pos hle,
    List.map_cons, List.map_nil]
  rw [ofNat_byte (by omega)]
  exact congrArg (fun d => [d]) (Char.ofNat_toNat c)

theorem utf8_two (h : 0x80 ≤ c.toNat) (h' : c.toNat < 0x800) :
    utf8 c =
      [Char.ofNat (c.toNat / 64 + 192), Char.ofNat (c.toNat % 64 + 128)] := by
  have h₁ : ¬ c.val.toNat ≤ 127 := Nat.not_le.mpr h
  have h₂ : c.val.toNat ≤ 2047 := Nat.le_of_lt_succ h'
  simp only [utf8, String.utf8EncodeChar, if_neg h₁, if_pos h₂,
    List.map_cons, List.map_nil]
  rw [ofNat_byte (by omega), ofNat_byte (by omega), Nat.mod_eq_of_lt (by omega)]
  rfl

theorem utf8_three (h : 0x800 ≤ c.toNat) (h' : c.toNat < 0x10000) :
    utf8 c =
      [Char.ofNat (c.toNat / 4096 + 224), Char.ofNat (c.toNat / 64 % 64 + 128),
      Char.ofNat (c.toNat % 64 + 128)] := by
  have h₁ : ¬ c.val.toNat ≤ 127 :=
    fun hle => absurd (Nat.le_trans h hle) (by decide)
  have h₂ : ¬ c.val.toNat ≤ 2047 := Nat.not_le.mpr h
  have h₃ : c.val.toNat ≤ 65535 := Nat.le_of_lt_succ h'
  simp only [utf8, String.utf8EncodeChar, if_neg h₁, if_neg h₂, if_pos h₃,
    List.map_cons, List.map_nil]
  rw [ofNat_byte (by omega), ofNat_byte (by omega), ofNat_byte (by omega),
    Nat.mod_eq_of_lt (by omega)]
  rfl

theorem toNat_le_max (c : Char) : c.toNat ≤ 0x10FFFF := by
  rcases c.valid with h | h
  · exact Nat.le_trans (Nat.le_of_lt h) (by decide)
  · exact Nat.le_of_lt_succ h.2

theorem utf8_four (h : 0x10000 ≤ c.toNat) :
    utf8 c =
      [Char.ofNat (c.toNat / 262144 + 240),
        Char.ofNat (c.toNat / 4096 % 64 + 128),
        Char.ofNat (c.toNat / 64 % 64 + 128),
        Char.ofNat (c.toNat % 64 + 128)] := by
  have h₁ : ¬ c.val.toNat ≤ 127 :=
    fun hle => absurd (Nat.le_trans h hle) (by decide)
  have h₂ : ¬ c.val.toNat ≤ 2047 :=
    fun hle => absurd (Nat.le_trans h hle) (by decide)
  have h₃ : ¬ c.val.toNat ≤ 65535 := Nat.not_le.mpr h
  have hmax : c.val.toNat ≤ 0x10FFFF := toNat_le_max c
  simp only [utf8, String.utf8EncodeChar, if_neg h₁, if_neg h₂, if_neg h₃,
    List.map_cons, List.map_nil]
  rw [ofNat_byte (by omega), ofNat_byte (by omega), ofNat_byte (by omega),
    ofNat_byte (by omega), Nat.mod_eq_of_lt (by omega)]
  rfl

end Lengths

theorem utf8Text_cons_of_lt {c : Char} (h : c.toNat < 128) (t : List Char) :
    utf8Text (c :: t) = c :: utf8Text t := by
  rw [utf8Text, List.flatMap_cons, utf8_of_lt h]
  rfl

theorem utf8Text_append (t t' : List Char) :
    utf8Text (t ++ t') = utf8Text t ++ utf8Text t' := List.flatMap_append

/-- All characters of the text are below 128. -/
theorem utf8Text_of_lt {t : List Char} (h : ∀ c ∈ t, c.toNat < 128) :
    utf8Text t = t := by
  induction t with
  | nil => rfl
  | cons c t ih =>
      rw [utf8Text_cons_of_lt (h c List.mem_cons_self),
        ih fun d hd => h d (List.mem_cons_of_mem _ hd)]

theorem le_ofNat {n : Nat} (h : 128 ≤ n) (h' : n < 256) :
    128 ≤ (Char.ofNat n).toNat := by
  rwa [toNat_ofNat_of_lt h']

theorem le_of_mem_utf8 {c b : Char} (h : 128 ≤ c.toNat) (hb : b ∈ utf8 c) :
    128 ≤ b.toNat := by
  have hmax := toNat_le_max c
  rcases Nat.lt_or_ge c.toNat 0x800 with h₂ | h₂
  · rw [utf8_two h h₂] at hb
    simp only [List.mem_cons, List.not_mem_nil, or_false] at hb
    rcases hb with rfl | rfl
    · exact le_ofNat (by omega) (by omega)
    · exact le_ofNat (by omega) (by omega)
  rcases Nat.lt_or_ge c.toNat 0x10000 with h₃ | h₃
  · rw [utf8_three h₂ h₃] at hb
    simp only [List.mem_cons, List.not_mem_nil, or_false] at hb
    rcases hb with rfl | rfl | rfl
    · exact le_ofNat (by omega) (by omega)
    · exact le_ofNat (by omega) (by omega)
    · exact le_ofNat (by omega) (by omega)
  · rw [utf8_four h₃] at hb
    simp only [List.mem_cons, List.not_mem_nil, or_false] at hb
    rcases hb with rfl | rfl | rfl | rfl
    · exact le_ofNat (by omega) (by omega)
    · exact le_ofNat (by omega) (by omega)
    · exact le_ofNat (by omega) (by omega)
    · exact le_ofNat (by omega) (by omega)

end GhostDataplane.Lib
