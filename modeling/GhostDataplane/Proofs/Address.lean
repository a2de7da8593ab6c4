import GhostDataplane.Engine.Address

/-!
# What addresses are read, and how they are printed

`fw_pkt_parse_ip` returns 0 on every text that begins with four numbers with
dots between them, where `%u` decides what a number is. The dotted quads are
among those texts and come out right. So do the texts that `sscanf` gives up
on. What is left in between is accepted as some address although it is none:
an octet above 255 is cut to its low byte, a sign and white space are skipped,
and what follows the fourth number is not looked at.

Printing is in order. Every octet that is printed is below 256, so the text is
a dotted quad, fits the buffer and is read back as the same address.
-/

namespace GhostDataplane.Engine

open GhostDataplane.Lib

/-- The digits of a number in decimal; there may be zeros at the front. -/
def Decimal (digits : List Char) (v : Nat) : Prop :=
  digits ≠ [] ∧ (∀ c ∈ digits, c.isDigit = true) ∧
    Nat.ofDigitChars 10 digits 0 = v

/-- The string is four numbers below 256 with single dots between them. -/
def DottedQuad (s : CString) (a b c d : Nat) : Prop :=
  (∃ da db dc dd, Decimal da a ∧ Decimal db b ∧ Decimal dc c ∧ Decimal dd d ∧
    s.chars = da ++ '.' :: (db ++ '.' :: (dc ++ '.' :: dd))) ∧
  a ≤ 255 ∧ b ≤ 255 ∧ c ≤ 255 ∧ d ≤ 255

/-- A string that is a dotted quad is parsed to the address with these octets,
the first one highest; for any other string the call returns -1 and leaves
`dest` as it was. -/
def ReadExactly (unrepresentable : Numeral → Nat) (s : CString) : Prop :=
  ∀ dest,
    (∀ a b c d, DottedQuad s a b c d →
      ∃ x : UInt32, fwPktParseIp unrepresentable (some s) (some dest) =
        (0, some x) ∧
        x.toNat = a * 0x1000000 + b * 0x10000 + c * 0x100 + d) ∧
    ((∀ a b c d, ¬ DottedQuad s a b c d) →
      fwPktParseIp unrepresentable (some s) (some dest) = (-1, some dest))

/-! ## Packing octets -/

theorem and_0xff (x : Nat) : x &&& 0xff = x % 256 :=
  Nat.and_two_pow_sub_one_eq_mod x 8

/-- The low bits are free after a shift. -/
theorem shiftLeft_or {x y w : Nat} (hy : y < 1 <<< w) :
    (x <<< w) ||| y = x * (1 <<< w) + y := by
  rw [Nat.one_shiftLeft] at hy ⊢
  rw [← Nat.shiftLeft_add_eq_or_of_lt hy, Nat.shiftLeft_eq]

theorem rteIPv4_eq (a b c d : Nat) :
    rteIPv4 a b c d =
      a % 256 * 0x1000000 + b % 256 * 0x10000 + c % 256 * 0x100 + d % 256 := by
  simp only [rteIPv4, and_0xff]
  rw [Nat.or_assoc, Nat.or_assoc, shiftLeft_or (w := 8) (by omega),
    shiftLeft_or (w := 16) (by omega), shiftLeft_or (w := 24) (by omega)]
  omega

theorem rteIPv4_lt (a b c d : Nat) : rteIPv4 a b c d < uintLimit := by
  rw [rteIPv4_eq, uintLimit]
  omega

theorem rteIPv4_octets (x : UInt32) :
    rteIPv4 (x.toNat >>> 24 &&& 0xFF) (x.toNat >>> 16 &&& 0xFF)
      (x.toNat >>> 8 &&& 0xFF) (x.toNat &&& 0xFF) = x.toNat := by
  have hx := x.toNat_lt
  rw [rteIPv4_eq]
  simp only [and_0xff, Nat.shiftRight_eq_div_pow]
  omega

/-! ## Reading -/

section Reading

variable {unrepresentable : Numeral → Nat} {s : CString} {dest : UInt32}

/-- The address that is stored for four numbers. -/
def address (unrepresentable : Numeral → Nat) (ns : List Numeral) : UInt32 :=
  let ip := fun i => (ns.map (Numeral.value uintLimit unrepresentable)).getD i 0
  UInt32.ofNat (rteIPv4 (ip 0) (ip 1) (ip 2) (ip 3))

theorem fwPktParseIp_of_reads {ns : List Numeral}
    (h : Reads ipFormat s.chars ns) :
    fwPktParseIp unrepresentable (some s) (some dest) =
      (0, some (address unrepresentable ns)) := by
  have hret :
      (sscanf (Numeral.value uintLimit unrepresentable) s ipFormat).1 = 4 :=
    (sscanf_ret_iff rfl).mpr ⟨ns, h⟩
  simp only [fwPktParseIp, hret, sscanf_values h, ne_eq, not_true, if_false,
    address]

theorem fwPktParseIp_of_not_reads (h : ¬ ∃ ns, Reads ipFormat s.chars ns) :
    fwPktParseIp unrepresentable (some s) (some dest) = (-1, some dest) := by
  have hret :
      (sscanf (Numeral.value uintLimit unrepresentable) s ipFormat).1 ≠ 4 :=
    fun hret => h ((sscanf_ret_iff rfl).mp hret)
  simp only [fwPktParseIp, hret, ne_eq, not_false_iff, if_true]

theorem fwPktParseIp_ret_iff :
    (fwPktParseIp unrepresentable (some s) (some dest)).1 = 0 ↔
      ∃ ns, Reads ipFormat s.chars ns := by
  by_cases h : ∃ ns, Reads ipFormat s.chars ns
  · obtain ⟨ns, hns⟩ := h
    rw [fwPktParseIp_of_reads hns]
    exact iff_of_true rfl ⟨ns, hns⟩
  · rw [fwPktParseIp_of_not_reads h]
    exact iff_of_false (fun hret => by cases hret) h

end Reading

/-! ## Dotted quads -/

/-- Digits alone are one of the texts that `%u` takes. -/
theorem Decimal.numeral {digits : List Char} {v : Nat} (h : Decimal digits v) :
    ∃ n : Numeral, n.Spells digits ∧ n.negative = false ∧ n.magnitude = v :=
  ⟨⟨false, digits, h.1, h.2.1⟩,
    ⟨[], [], List.forall_mem_nil _, List.mem_cons_self, rfl⟩, rfl, h.2.2⟩

theorem noDigit_dot (s : List Char) : NoDigit ('.' :: s) := by
  intro c hc
  cases hc
  decide

theorem DottedQuad.reads {s : CString} {a b c d : Nat}
    (h : DottedQuad s a b c d) (unrepresentable : Numeral → Nat) :
    ∃ ns, Reads ipFormat s.chars ns ∧
      ns.map (Numeral.value uintLimit unrepresentable) = [a, b, c, d] := by
  obtain ⟨⟨da, db, dc, dd, ha, hb, hc, hd, hs⟩, hla, hlb, hlc, hld⟩ := h
  obtain ⟨na, hsa, hna, rfl⟩ := ha.numeral
  obtain ⟨nb, hsb, hnb, rfl⟩ := hb.numeral
  obtain ⟨nc, hsc, hnc, rfl⟩ := hc.numeral
  obtain ⟨nd, hsd, hnd, rfl⟩ := hd.numeral
  have hvalue : ∀ n : Numeral, n.negative = false → n.magnitude ≤ 255 →
      n.value uintLimit unrepresentable = n.magnitude := by
    intro n hn hle
    exact Numeral.value_of_lt hn (Nat.lt_of_le_of_lt hle (by decide))
  refine ⟨[na, nb, nc, nd], ?_, ?_⟩
  · rw [hs]
    refine .unsigned hsa (noDigit_dot _) (.ordinary ?_)
    refine .unsigned hsb (noDigit_dot _) (.ordinary ?_)
    refine .unsigned hsc (noDigit_dot _) (.ordinary ?_)
    have hend : Reads [.unsigned] (dd ++ []) [nd] :=
      .unsigned hsd (fun c hc => by cases hc) .nil
    rwa [List.append_nil] at hend
  · simp only [List.map_cons, List.map_nil, hvalue na hna hla,
      hvalue nb hnb hlb, hvalue nc hnc hlc, hvalue nd hnd hld]

theorem DottedQuad.parsed {s : CString} {a b c d : Nat}
    (h : DottedQuad s a b c d) (unrepresentable : Numeral → Nat)
    (dest : UInt32) :
    ∃ x : UInt32,
      fwPktParseIp unrepresentable (some s) (some dest) = (0, some x) ∧
      x.toNat = a * 0x1000000 + b * 0x10000 + c * 0x100 + d := by
  obtain ⟨ns, hns, hvalues⟩ := h.reads unrepresentable
  refine ⟨_, fwPktParseIp_of_reads hns, ?_⟩
  obtain ⟨-, hla, hlb, hlc, hld⟩ := h
  rw [address, hvalues, UInt32.toNat_ofNat_of_lt' (rteIPv4_lt _ _ _ _)]
  simp only [List.getD_cons_zero, List.getD_cons_succ, rteIPv4_eq]
  omega

theorem DottedQuad.mem_chars {s : CString} {a b c d : Nat} {e : Char}
    (h : DottedQuad s a b c d) (he : e ∈ s.chars) :
    e.isDigit = true ∨ e = '.' := by
  obtain ⟨⟨da, db, dc, dd, ha, hb, hc, hd, hs⟩, -⟩ := h
  simp only [hs, List.mem_append, List.mem_cons] at he
  rcases he with he | he | he | he | he | he | he
  · exact Or.inl (ha.2.1 e he)
  · exact Or.inr he
  · exact Or.inl (hb.2.1 e he)
  · exact Or.inr he
  · exact Or.inl (hc.2.1 e he)
  · exact Or.inr he
  · exact Or.inl (hd.2.1 e he)

/-- Dotted quads are read as the address that they denote. Beyond them
everything is accepted that begins with four numbers with dots between them,
and only where that adds nothing is the function exact. -/
theorem read_exactly_iff (unrepresentable : Numeral → Nat) (s : CString) :
    (∀ dest a b c d, DottedQuad s a b c d →
      ∃ x : UInt32,
        fwPktParseIp unrepresentable (some s) (some dest) = (0, some x) ∧
        x.toNat = a * 0x1000000 + b * 0x10000 + c * 0x100 + d) ∧
    (∀ dest, (fwPktParseIp unrepresentable (some s) (some dest)).1 = 0 ↔
      ∃ ns, Reads ipFormat s.chars ns) ∧
    (ReadExactly unrepresentable s ↔
      (∃ a b c d, DottedQuad s a b c d) ∨
      ¬ ∃ ns, Reads ipFormat s.chars ns) := by
  refine ⟨fun dest a b c d h => h.parsed unrepresentable dest,
    fun dest => fwPktParseIp_ret_iff, ?_⟩
  constructor
  · intro h
    by_cases hquad : ∃ a b c d, DottedQuad s a b c d
    · exact Or.inl hquad
    · refine Or.inr fun hreads => ?_
      have hfail := (h 0).2 fun a b c d hq => hquad ⟨a, b, c, d, hq⟩
      have hok : (fwPktParseIp unrepresentable (some s) (some 0)).1 = 0 :=
        fwPktParseIp_ret_iff.mpr hreads
      rw [hfail] at hok
      cases hok
  · rintro (⟨a, b, c, d, hquad⟩ | hno) dest
    · exact ⟨fun a b c d h => h.parsed unrepresentable dest,
        fun hnone => absurd hquad (hnone a b c d)⟩
    · exact ⟨fun a b c d h => h.parsed unrepresentable dest,
        fun _ => fwPktParseIp_of_not_reads hno⟩

/-- An octet above 255 is cut to its low byte, and a prefix length behind the
address is not looked at. -/
theorem out_of_range_octet_accepted :
    let unrepresentable : Numeral → Nat := fun _ => 0
    let cut : CString := ⟨"256.0.0.1".toList, by decide⟩
    let suffixed : CString := ⟨"10.0.0.0/8".toList, by decide⟩
    (fwPktParseIp unrepresentable (some cut) (some 7) = (0, some 1) ∧
      ∀ a b c d, ¬ DottedQuad cut a b c d) ∧
    (fwPktParseIp unrepresentable (some suffixed) (some 7) =
        (0, some 0x0A000000) ∧
      ∀ a b c d, ¬ DottedQuad suffixed a b c d) := by
  intro unrepresentable cut suffixed
  have hcut : sscanf (Numeral.value uintLimit unrepresentable) cut ipFormat =
      (4, [256, 0, 0, 1]) := rfl
  have hsuffixed : sscanf (Numeral.value uintLimit unrepresentable) suffixed
      ipFormat = (4, [10, 0, 0, 0]) := rfl
  refine ⟨⟨?_, ?_⟩, ⟨?_, ?_⟩⟩
  · simp only [fwPktParseIp, hcut]
    decide
  · intro a b c d h
    obtain ⟨ns, hns, hvalues⟩ := h.reads unrepresentable
    have hsame := (sscanf_values hns).trans hvalues
    rw [hcut] at hsame
    cases hsame
    exact absurd h.2.1 (by decide)
  · simp only [fwPktParseIp, hsuffixed]
    decide
  · intro a b c d h
    have hslash : '/' ∈ suffixed.chars := by decide
    exact absurd (h.mem_chars hslash) (by decide)

/-! ## Printing -/

theorem octets_lt {x : UInt32} {v : Nat} (hv : v ∈ octets x) : v < 256 := by
  simp only [octets, and_0xff, List.mem_cons, List.not_mem_nil, or_false] at hv
  omega

theorem digits_length {v : Nat} (hv : v < 256) :
    (Nat.toDigits 10 v).length ≤ 3 :=
  (Nat.length_toDigits_le_iff (by decide) (by decide)).mpr (by omega)

theorem octet_text_length (x : UInt32) :
    (sprint ipFormat (octets x)).length < ipStringSize := by
  have hlen : ∀ v ∈ octets x, (Nat.toDigits 10 v).length ≤ 3 :=
    fun v hv => digits_length (octets_lt hv)
  simp only [octets, List.forall_mem_cons] at hlen
  simp only [ipFormat, octets, sprint, List.length_append, List.length_cons,
    List.length_nil, ipStringSize]
  omega

theorem nul_not_mem_text (x : UInt32) : nul ∉ sprint ipFormat (octets x) := by
  intro h
  rcases mem_sprint h with hdigit | hdot
  · exact absurd hdigit (by decide)
  · exact absurd hdot (by decide)

/-- A printed address, as the string in the buffer. -/
theorem ofBuffer_fwPktParseCharIp (x : UInt32) :
    (CString.ofBuffer (fwPktParseCharIp x)).chars =
      sprint ipFormat (octets x) := by
  rw [fwPktParseCharIp, snprintf_of_fits (octet_text_length x)]
  exact congrArg CString.chars
    (CString.ofBuffer_append ⟨_, nul_not_mem_text x⟩ [])

theorem fwPktParseIp_printed (unrepresentable : Numeral → Nat)
    (x dest : UInt32) :
    fwPktParseIp unrepresentable (some (.ofBuffer (fwPktParseCharIp x)))
      (some dest) = (0, some x) := by
  have hsep : Separated ipFormat := by
    simp [ipFormat, Separated]
  have hreads : Reads ipFormat (CString.ofBuffer (fwPktParseCharIp x)).chars
      ((octets x).map Numeral.ofNat) := by
    rw [ofBuffer_fwPktParseCharIp]
    exact reads_sprint hsep rfl
  have hvalues : ((octets x).map Numeral.ofNat).map
      (Numeral.value uintLimit unrepresentable) = octets x := by
    rw [List.map_map]
    refine (List.map_congr_left fun v hv => ?_).trans (List.map_id _)
    exact Numeral.value_ofNat (Nat.lt_trans (octets_lt hv) (by decide))
  have haddress :
      address unrepresentable ((octets x).map Numeral.ofNat) = x := by
    rw [address, hvalues]
    exact UInt32.toNat_inj.mp ((UInt32.toNat_ofNat_of_lt'
      (rteIPv4_lt _ _ _ _)).trans (rteIPv4_octets x))
  rw [fwPktParseIp_of_reads hreads, haddress]

/-- A printed address fits the buffer and is read back as itself, so no two
addresses are printed alike. -/
theorem address_round_trip (unrepresentable : Numeral → Nat) (x dest : UInt32) :
    fwPktParseCharIp x = sprint ipFormat (octets x) ++ [nul] ∧
    nul ∉ sprint ipFormat (octets x) ∧
    (fwPktParseCharIp x).length ≤ ipStringSize ∧
    fwPktParseIp unrepresentable (some (.ofBuffer (fwPktParseCharIp x)))
      (some dest) = (0, some x) ∧
    ∀ y, CString.ofBuffer (fwPktParseCharIp y) =
      .ofBuffer (fwPktParseCharIp x) → y = x := by
  have hfits := octet_text_length x
  have htext : fwPktParseCharIp x = sprint ipFormat (octets x) ++ [nul] :=
    snprintf_of_fits hfits
  refine ⟨htext, nul_not_mem_text x, ?_, fwPktParseIp_printed _ x dest, ?_⟩
  · rw [htext, List.length_append, List.length_singleton]
    exact hfits
  · intro y hy
    have hparsed := fwPktParseIp_printed unrepresentable y dest
    rw [hy, fwPktParseIp_printed unrepresentable x dest] at hparsed
    exact (Option.some_inj.mp (Prod.ext_iff.mp hparsed).2).symm

end GhostDataplane.Engine
