import GhostDataplane.Engine.JsonGrammar

/-!
# Reading a string

`parse_string` goes over a string twice. The first time it looks for the end
and counts the escapes, which tells it how much memory to ask for: one byte for
each character, less one for each escape. The second time it writes what the
characters stand for. The two do not see the same escapes. The first takes a
backslash and the character after it for one; the second takes six characters
for a `\u` or twelve for a pair of them, and from the middle of what the first
took for an escape it may go on with the character that was escaped.

That the memory suffices all the same is an argument about windows. `escapes`
counts with a flag that says whether the next character is an escaped one. A
window of `2 k` characters has at most `k` escapes of the first reading begin in
it, whatever the flag, so at least `k` bytes were asked for it, and the second
reading never writes more than `k` for a window of this size. A character that
stands for itself is not a backslash, no escape begins there and a byte was
asked for it.

What has been read is kept as a piece `u` of the text that ends with the closing
quote. It is empty when the quote itself has been taken as escaped, and this is
as far as the second loop can get.
-/

namespace GhostDataplane.Engine

open GhostDataplane.Lib
open GhostDataplane.Lib.Checked

/-! ## Reading bytes -/

section Bytes

variable {b : ParseBuffer} {p : Nat} {c : Char} {t u : List Char}

theorem byteAt_eq (h : b.content[p]? = some c) : byteAt p b = .ok (c, b) := by
  rw [byteAt, get_bind, h]
  rfl

theorem getElem?_of_drop {l : List Char} (h : l.drop p = c :: u) :
    l[p]? = some c := by
  rw [← List.head?_drop, h]
  rfl

theorem drop_succ_of_drop {l : List Char} (h : l.drop p = c :: u) :
    l.drop (p + 1) = u := by
  rw [← List.tail_drop, h]
  rfl

theorem byteAt_of_drop (h : b.content.drop p = c :: u) :
    byteAt p b = .ok (c, b) :=
  byteAt_eq (getElem?_of_drop h)

/-- The text that is left at the offset, without its NUL. -/
structure ParseBuffer.At (b : ParseBuffer) (t : List Char) : Prop where
  rest : b.content.drop b.offset = t ++ [nul]
  noNul : nul ∉ t

theorem ParseBuffer.At.length (h : b.At t) :
    b.length = b.offset + t.length + 1 := by
  have hlen := congrArg List.length h.rest
  rw [List.length_drop, List.length_append, List.length_singleton] at hlen
  unfold ParseBuffer.length
  omega

/-- Further on in the same text. -/
theorem ParseBuffer.At.drop {b' : ParseBuffer} (h : b.At (u ++ t))
    (hcontent : b'.content = b.content)
    (hoffset : b'.offset = b.offset + u.length) : b'.At t where
  rest := by
    rw [hcontent, hoffset, ← List.drop_drop, h.rest, List.append_assoc,
      List.drop_left]
  noNul hn := h.noNul (List.mem_append_right _ hn)

theorem bufferAtOffset_of_at (h : b.At t) :
    bufferAtOffset 0 b = .ok (t.headD nul, b) := by
  rw [bufferAtOffset, get_bind]
  cases t with
  | nil => exact byteAt_of_drop h.rest
  | cons c t => exact byteAt_of_drop h.rest

theorem canAccess_of_at (h : b.At t) : b.canAccessAtIndex 0 = true := by
  have hlen := h.length
  exact decide_eq_true (by omega)

end Bytes

/-! ## The end of the string -/

/-- The number of escapes that begin in a text, of which the first character is
escaped if the flag is set. -/
def escapes : Bool → List Char → Nat
  | _, [] => 0
  | true, _ :: t => escapes false t
  | false, c :: t => if c = '\\' then escapes true t + 1 else escapes false t

section Split

variable {c d : Char} {t body rest : List Char}

theorem splitString_quote : splitString ('"' :: t) = some ([], t) := by
  rw [splitString.eq_def]
  rfl

theorem splitString_escape :
    splitString ('\\' :: d :: t) =
      (splitString t).map fun r => ('\\' :: d :: r.1, r.2) := by
  rw [splitString.eq_def]
  rfl

theorem splitString_plain (hq : c ≠ '"') (hb : c ≠ '\\') :
    splitString (c :: t) = (splitString t).map fun r => (c :: r.1, r.2) := by
  rw [splitString.eq_def]
  simp only [if_neg hq, if_neg hb]

theorem splitString_eq (h : splitString t = some (body, rest)) :
    t = body ++ '"' :: rest := by
  induction t using splitString.induct generalizing body with
  | case1 => cases h
  | case2 t =>
      rw [splitString_quote] at h
      cases h
      rfl
  | case3 => cases h
  | case4 d t _ ih =>
      rw [splitString_escape, Option.map_eq_some_iff] at h
      obtain ⟨r, hr, heq⟩ := h
      cases heq
      rw [ih hr]
      rfl
  | case5 c t hq hb ih =>
      rw [splitString_plain hq hb, Option.map_eq_some_iff] at h
      obtain ⟨r, hr, heq⟩ := h
      cases heq
      rw [ih hr]
      rfl

/-- The NUL after the text makes no difference. -/
theorem splitString_nul :
    splitString (t ++ [nul]) = (splitString t).map fun r =>
      (r.1, r.2 ++ [nul]) := by
  induction t using splitString.induct with
  | case1 => rfl
  | case2 t =>
      rw [List.cons_append, splitString_quote, splitString_quote]
      rfl
  | case3 => rfl
  | case4 d t _ ih =>
      rw [List.cons_append, List.cons_append, splitString_escape,
        splitString_escape, ih, Option.map_map, Option.map_map]
      rfl
  | case5 c t hq hb ih =>
      rw [List.cons_append, splitString_plain hq hb, splitString_plain hq hb,
        ih, Option.map_map, Option.map_map]
      rfl

end Split

/-- The first loop: `pre` is behind `input_end`, and the escapes in it have been
counted. -/
structure ScanAt (b : ParseBuffer) (start : Nat) (st : Nat × Nat)
    (pre : List Char) : Prop where
  pos : st.1 = start + pre.length
  le : st.1 ≤ b.length
  split : splitString (b.content.drop start) =
    (splitString (b.content.drop st.1)).map fun r => (pre ++ r.1, r.2)
  count : ∀ body, escapes false (pre ++ body) = st.2 + escapes false body

/-- The first loop is left where the string ends, or where the text does. -/
def ScanDone (b : ParseBuffer) (start : Nat) : Option (Nat × Nat) → Prop
  | none => splitString (b.content.drop start) = none
  | some st => (∃ pre, ScanAt b start st pre) ∧
      (st.1 < b.length → b.content[st.1]? = some '"')

section Scan

variable {b : ParseBuffer} {start inputEnd skipped : Nat}
  {pre u : List Char} {c d : Char}

theorem scanAt_start (h : start ≤ b.length) : ScanAt b start (start, 0) [] where
  pos := rfl
  le := h
  split := by simp
  count body := by rw [List.nil_append, Nat.zero_add]

theorem ScanAt.plain (h : ScanAt b start (inputEnd, skipped) pre)
    (hu : b.content.drop inputEnd = c :: u) (hq : c ≠ '"') (hb : c ≠ '\\') :
    ScanAt b start (inputEnd + 1, skipped) (pre ++ [c]) where
  pos := by
    have := h.pos
    simp only [List.length_append, List.length_singleton]
    omega
  le := by
    have := congrArg List.length hu
    rw [List.length_drop, List.length_cons] at this
    show inputEnd + 1 ≤ b.content.length
    omega
  split := by
    rw [h.split, hu, splitString_plain hq hb, drop_succ_of_drop hu,
      Option.map_map]
    simp [Function.comp_def]
  count body := by
    rw [List.append_assoc, h.count]
    simp [escapes, hb]

theorem ScanAt.escape (h : ScanAt b start (inputEnd, skipped) pre)
    (hu : b.content.drop inputEnd = '\\' :: d :: u) :
    ScanAt b start (inputEnd + 2, skipped + 1) (pre ++ ['\\', d]) where
  pos := by
    have := h.pos
    simp only [List.length_append, List.length_cons, List.length_nil]
    omega
  le := by
    have := congrArg List.length hu
    rw [List.length_drop, List.length_cons, List.length_cons] at this
    show inputEnd + 2 ≤ b.content.length
    omega
  split := by
    rw [h.split, hu, splitString_escape,
      drop_succ_of_drop (drop_succ_of_drop hu), Option.map_map]
    simp [Function.comp_def]
  count body := by
    rw [List.append_assoc, h.count]
    simp [escapes]
    omega

theorem scanTurn_returns (st : Nat × Nat) (h : ScanAt b start st pre) :
    (scanTurn st).Returns b
      (TurnPost (fun st s => s = b ∧ ∃ pre, ScanAt b start st pre)
      (fun st _ => b.length - st.1) (fun r s => s = b ∧ ScanDone b start r)
      (b.length - st.1)) := by
  obtain ⟨inputEnd, skipped⟩ := st
  unfold scanTurn
  refine returns_get_bind ?_
  split
  · next hlt =>
      obtain ⟨c, u, hu⟩ : ∃ c u, b.content.drop inputEnd = c :: u :=
        List.exists_cons_of_ne_nil fun h =>
          absurd (List.drop_eq_nil_iff.mp h) (not_le.mpr hlt)
      refine .step (byteAt_of_drop hu) ?_
      split
      · next hq =>
          exact returns_done ⟨rfl, ⟨pre, h⟩, fun _ => hq ▸ getElem?_of_drop hu⟩
      · next hq =>
          split
          · next hb =>
              subst hb
              split
              · next hend =>
                  refine returns_done ⟨rfl, ?_⟩
                  have hu' : u = [] := by
                    rw [← drop_succ_of_drop hu]
                    exact List.drop_eq_nil_iff.mpr hend
                  show splitString _ = none
                  rw [h.split, hu, hu']
                  rfl
              · next hend =>
                  obtain ⟨d, u, rfl⟩ : ∃ d w, u = d :: w := by
                    refine List.exists_cons_of_ne_nil fun hnil => hend ?_
                    rw [← drop_succ_of_drop hu] at hnil
                    exact List.drop_eq_nil_iff.mp hnil
                  exact returns_again ⟨rfl, _, h.escape hu⟩
                    (by simp only; omega)
          · next hb =>
              exact returns_again ⟨rfl, _, h.plain hu hq hb⟩
                (by simp only; omega)
  · next hlt => exact returns_done ⟨rfl, ⟨pre, h⟩, fun h' => absurd h' hlt⟩

/-- The closing quote is found if there is one, with the number of escapes
before it. -/
theorem scanString_returns (h : start ≤ b.length) :
    (scanString start).Returns b fun r b' => b' = b ∧
      match r with
      | none => splitString (b.content.drop start) = none
      | some (inputEnd, skipped) => ∃ body rest,
          splitString (b.content.drop start) = some (body, rest) ∧
          inputEnd = start + body.length ∧ skipped = escapes false body := by
  refine returns_get_bind ?_
  refine Returns.bind (P := fun r s => s = b ∧ ScanDone b start r)
    (returns_loop (fun st s => s = b ∧ ∃ pre, ScanAt b start st pre)
      (fun st _ => b.length - st.1) ?_ ⟨rfl, [], scanAt_start h⟩
      (Nat.lt_succ_of_le (Nat.sub_le _ _))) ?_
  · rintro st s ⟨rfl, pre, hpre⟩
    exact scanTurn_returns st hpre
  rintro (_ | ⟨inputEnd, skipped⟩) s ⟨rfl, hr⟩
  · exact returns_pure ⟨rfl, hr⟩
  · obtain ⟨⟨pre, hpre⟩, hquote⟩ := hr
    simp only
    split
    · next hend =>
        refine returns_pure ⟨rfl, ?_⟩
        show splitString _ = none
        rw [hpre.split, List.drop_eq_nil_of_le hend]
        rfl
    · next hend =>
        have hq := hquote (Nat.lt_of_not_le hend)
        refine .step (byteAt_eq hq) ?_
        rw [if_neg (not_not_intro rfl)]
        refine returns_pure
          ⟨rfl, pre, s.content.drop (inputEnd + 1), ?_, hpre.pos, ?_⟩
        · have hdrop : s.content.drop inputEnd =
              '"' :: s.content.drop (inputEnd + 1) := by
            obtain ⟨hlt, hget⟩ := List.getElem?_eq_some_iff.mp hq
            rw [List.drop_eq_getElem_cons hlt, hget]
          rw [hpre.split, hdrop, splitString_quote]
          simp
        · have hcount := hpre.count []
          simpa [escapes] using hcount.symm

end Scan

/-! ## Room for the output -/

theorem escapes_le (f : Bool) (u : List Char) : escapes f u ≤ u.length := by
  induction u generalizing f with
  | nil => simp [escapes]
  | cons c u ih =>
      cases f with
      | true => exact Nat.le_succ_of_le (ih false)
      | false =>
          rw [escapes]
          split
          · exact Nat.succ_le_succ (ih true)
          · exact Nat.le_succ_of_le (ih false)

/-- Of two characters that follow each other at most one begins an escape. -/
theorem escapes_two (f : Bool) (c d : Char) (u : List Char) :
    ∃ f', escapes f (c :: d :: u) ≤ escapes f' u + 1 := by
  cases f with
  | true =>
      by_cases hd : d = '\\'
      · exact ⟨true, by simp [escapes, hd]⟩
      · exact ⟨false, by simp [escapes, hd]⟩
  | false =>
      by_cases hc : c = '\\'
      · exact ⟨false, by simp [escapes, hc]⟩
      · by_cases hd : d = '\\'
        · exact ⟨true, by simp [escapes, hc, hd]⟩
        · exact ⟨false, by simp [escapes, hc, hd]⟩

theorem escapes_window (k : Nat) (f : Bool) (u : List Char)
    (h : 2 * k ≤ u.length) :
    ∃ f', escapes f u ≤ escapes f' (u.drop (2 * k)) + k := by
  induction k generalizing f u with
  | zero => exact ⟨f, Nat.le_refl _⟩
  | succ k ih =>
      obtain ⟨c, d, u, rfl⟩ : ∃ c d w, u = c :: d :: w := by
        rcases u with _ | ⟨c, _ | ⟨d, u⟩⟩
        · simp at h
        · simp at h; omega
        · exact ⟨c, d, u, rfl⟩
      obtain ⟨f₁, h₁⟩ := escapes_two f c d u
      obtain ⟨f₂, h₂⟩ := ih f₁ u (by simp at h; omega)
      exact ⟨f₂,
        by rw [Nat.mul_succ, List.drop_succ_cons, List.drop_succ_cons]; omega⟩

/-! ## Escapes -/

section Escapes

variable {b : ParseBuffer} {p inputEnd : Nat} {u rest : List Char}

/-- One digit of the four: none ends the loop with 0. -/
theorem parseHexDigits_of_drop {c : Char} {h n : Nat}
    (hu : b.content.drop p = c :: u) :
    parseHexDigits p h (n + 1) b =
      match hexDigit c with
      | none => .ok (0, b)
      | some d =>
          if n = 0 then .ok (h + d, b)
          else parseHexDigits (p + 1) ((h + d) <<< 4) n b := by
  rw [parseHexDigits, bind_eq (byteAt_of_drop hu)]
  cases hexDigit c with
  | none => rfl
  | some d =>
      simp only
      split
      · rfl
      · rfl

theorem parseHex4_of_drop {c₁ c₂ c₃ c₄ : Char}
    (h₁ : b.content.drop p = c₁ :: c₂ :: c₃ :: c₄ :: u) :
    parseHex4 p b = .ok (hex4 c₁ c₂ c₃ c₄, b) := by
  have h₂ := drop_succ_of_drop h₁
  have h₃ := drop_succ_of_drop h₂
  have h₄ := drop_succ_of_drop h₃
  unfold parseHex4 hex4
  rw [parseHexDigits_of_drop h₁]
  cases hexDigit c₁ with
  | none => rfl
  | some d₁ =>
      simp only [parseHexDigits_of_drop h₂]
      cases hexDigit c₂ with
      | none => rfl
      | some d₂ =>
          simp only [parseHexDigits_of_drop h₃]
          cases hexDigit c₃ with
          | none => rfl
          | some d₃ =>
              simp only [parseHexDigits_of_drop h₄]
              cases hexDigit c₄ with
              | none => rfl
              | some d₄ =>
                  have hval : (((0 + d₁) <<< 4 + d₂) <<< 4 + d₃) <<< 4 + d₄ =
                      d₁ * 4096 + d₂ * 256 + d₃ * 16 + d₄ := by
                    simp only [Nat.shiftLeft_eq]
                    omega
                  simp only [← hval]
                  rfl

theorem length_encodeUtf8 {n : Nat} {bytes : List Char}
    (h : encodeUtf8 n = some bytes) :
    bytes.length ≤ 4 ∧ (n < 0x10000 → bytes.length ≤ 3) := by
  unfold encodeUtf8 at h
  split at h
  · cases h; simp
  · split at h
    · cases h; simp [encodeUtf8.mark, continuationBytes]
    · split at h
      · cases h; simp [encodeUtf8.mark, continuationBytes]
      · split at h
        · cases h
          refine ⟨by simp [encodeUtf8.mark, continuationBytes], fun _ => ?_⟩
          omega
        · cases h

theorem encodeUtf8_eq_none {n : Nat} (h : encodeUtf8 n = none) :
    0x10FFFF < n := by
  unfold encodeUtf8 at h
  split at h
  · cases h
  · split at h
    · cases h
    · split at h
      · cases h
      · split at h
        · cases h
        · omega

/-- One turn of the second loop reads `n` characters as `bytes`. No more is
written than was asked for the characters, whether the first of them is an
escaped one or not. -/
structure ReadsAs (u : List Char) (n : Nat) (bytes : List Char) : Prop where
  pos : 0 < n
  le : n ≤ u.length
  decodes : ∀ out, Decodes u out ↔ ∃ o, Decodes (u.drop n) o ∧ out = bytes ++ o
  room : ∀ f, ∃ f', bytes.length + escapes f u ≤ n + escapes f' (u.drop n)

theorem readsAs_window {k : Nat} {bytes : List Char} (hk : 0 < k)
    (hle : 2 * k ≤ u.length) (hbytes : bytes.length ≤ k)
    (hdecodes : ∀ out, Decodes u out ↔ ∃ o, Decodes (u.drop (2 * k)) o ∧
      out = bytes ++ o) :
    ReadsAs u (2 * k) bytes where
  pos := by omega
  le := hle
  decodes := hdecodes
  room f := by
    obtain ⟨f', hf⟩ := escapes_window k f u hle
    exact ⟨f', by omega⟩

theorem readsAs_plain {c d : Char} (hc : c ≠ '\\') :
    ReadsAs (c :: d :: u) 1 [c] where
  pos := Nat.one_pos
  le := by simp
  decodes out := by
    constructor
    · intro h
      cases h with
      | plain _ h => exact ⟨_, h, rfl⟩
      | _ => exact absurd rfl hc
    · rintro ⟨o, h, rfl⟩
      exact .plain hc h
  room f := by
    cases f with
    | true => exact ⟨false, by simp [escapes]⟩
    | false => exact ⟨false, by simp [escapes, hc]⟩

theorem readsAs_simple {d e : Char} (hd : simpleEscape d = some e) :
    ReadsAs ('\\' :: d :: u) 2 [e] := by
  have hu : simpleEscape 'u' = none := by decide
  refine readsAs_window (k := 1) Nat.one_pos (by simp)
    (Nat.le_refl _) fun out => ?_
  constructor
  · intro h
    cases h with
    | plain hc _ => exact absurd rfl hc
    | simple hd' h =>
        rw [hd] at hd'
        cases hd'
        exact ⟨_, h, rfl⟩
    | _ => rw [hu] at hd; cases hd
  · rintro ⟨o, h, rfl⟩
    exact .simple hd h

theorem readsAs_unicode {c₁ c₂ c₃ c₄ x : Char} {bytes : List Char}
    (hcode : ¬ (0xD800 ≤ hex4 c₁ c₂ c₃ c₄ ∧ hex4 c₁ c₂ c₃ c₄ ≤ 0xDFFF))
    (hbytes : encodeUtf8 (hex4 c₁ c₂ c₃ c₄) = some bytes)
    (hlen : bytes.length ≤ 3) :
    ReadsAs ('\\' :: 'u' :: c₁ :: c₂ :: c₃ :: c₄ :: x :: u) 6 bytes := by
  have hu : simpleEscape 'u' = none := by decide
  refine readsAs_window (k := 3) (by decide) (by simp) hlen fun out => ?_
  constructor
  · intro h
    cases h with
    | plain hc _ => exact absurd rfl hc
    | simple hd _ => rw [hu] at hd; cases hd
    | unicode _ hbytes' h =>
        rw [hbytes] at hbytes'
        cases hbytes'
        exact ⟨_, h, rfl⟩
    | pair hhigh _ _ _ => omega
  · rintro ⟨o, h, rfl⟩
    exact .unicode hcode hbytes h

theorem readsAs_pair {c₁ c₂ c₃ c₄ d₁ d₂ d₃ d₄ x : Char} {bytes : List Char}
    (hhigh : 0xD800 ≤ hex4 c₁ c₂ c₃ c₄ ∧ hex4 c₁ c₂ c₃ c₄ ≤ 0xDBFF)
    (hlow : 0xDC00 ≤ hex4 d₁ d₂ d₃ d₄ ∧ hex4 d₁ d₂ d₃ d₄ ≤ 0xDFFF)
    (hbytes : encodeUtf8 (surrogatePair (hex4 c₁ c₂ c₃ c₄) (hex4 d₁ d₂ d₃ d₄)) =
      some bytes)
    (hlen : bytes.length ≤ 6) :
    ReadsAs
      ('\\' :: 'u' :: c₁ :: c₂ :: c₃ :: c₄ ::
        '\\' :: 'u' :: d₁ :: d₂ :: d₃ :: d₄ :: x :: u) 12 bytes := by
  have hu : simpleEscape 'u' = none := by decide
  refine readsAs_window (k := 6) (by decide) (by simp) hlen fun out => ?_
  constructor
  · intro h
    cases h with
    | plain hc _ => exact absurd rfl hc
    | simple hd _ => rw [hu] at hd; cases hd
    | unicode hcode _ _ => omega
    | pair _ _ hbytes' h =>
        rw [hbytes] at hbytes'
        cases hbytes'
        exact ⟨_, h, rfl⟩
  · rintro ⟨o, h, rfl⟩
    exact .pair hhigh hlow hbytes h

/-- A character that is not known after a backslash cannot be read. -/
theorem not_decodes_unknown {d : Char} {out : List Char} (hd : d ≠ 'u')
    (he : simpleEscape d = none) : ¬ Decodes ('\\' :: d :: u) out := by
  intro h
  cases h with
  | plain hc _ => exact absurd rfl hc
  | simple hd' _ => rw [he] at hd'; cases hd'
  | _ => exact absurd rfl hd

/-- A `\u` is read together with the four characters after it, and there is one
more. The four are not the second half of a pair. -/
theorem Decodes.of_unicode {w out : List Char}
    (h : Decodes ('\\' :: 'u' :: w) out) :
    ∃ c₁ c₂ c₃ c₄ x t, w = c₁ :: c₂ :: c₃ :: c₄ :: x :: t ∧
      ¬ (0xDC00 ≤ hex4 c₁ c₂ c₃ c₄ ∧ hex4 c₁ c₂ c₃ c₄ ≤ 0xDFFF) := by
  have hu : simpleEscape 'u' = none := by decide
  cases h with
  | plain hc _ => exact absurd rfl hc
  | simple hd _ => rw [hu] at hd; cases hd
  | unicode hcode _ _ => exact ⟨_, _, _, _, _, _, rfl, by omega⟩
  | pair hhigh _ _ _ => exact ⟨_, _, _, _, _, _, rfl, by omega⟩

/-- If they are the first half of a pair, the second half follows. -/
theorem Decodes.of_pair {c₁ c₂ c₃ c₄ : Char} {w out : List Char}
    (h : Decodes ('\\' :: 'u' :: c₁ :: c₂ :: c₃ :: c₄ :: w) out)
    (hhigh : 0xD800 ≤ hex4 c₁ c₂ c₃ c₄ ∧ hex4 c₁ c₂ c₃ c₄ ≤ 0xDBFF) :
    ∃ d₁ d₂ d₃ d₄ x t, w = '\\' :: 'u' :: d₁ :: d₂ :: d₃ :: d₄ :: x :: t ∧
      (0xDC00 ≤ hex4 d₁ d₂ d₃ d₄ ∧ hex4 d₁ d₂ d₃ d₄ ≤ 0xDFFF) ∧
      encodeUtf8 (surrogatePair (hex4 c₁ c₂ c₃ c₄) (hex4 d₁ d₂ d₃ d₄)) ≠
        none := by
  have hu : simpleEscape 'u' = none := by decide
  cases h with
  | plain hc _ => exact absurd rfl hc
  | simple hd _ => rw [hu] at hd; cases hd
  | unicode hcode _ _ => omega
  | pair _ hlow hbytes _ =>
      exact ⟨_, _, _, _, _, _, rfl, hlow,
        by rw [hbytes]; exact Option.some_ne_none _⟩

/-- What `utf16_literal_to_utf8` says about a text that begins with `\u`. -/
def LiteralReading (u : List Char) : Option (List Char × Nat) → Prop
  | none => ∀ out, ¬ Decodes u out
  | some (bytes, n) => ReadsAs u n bytes

theorem exists_five_cons {w : List Char} (h : 5 ≤ w.length) :
    ∃ c₁ c₂ c₃ c₄ x t, w = c₁ :: c₂ :: c₃ :: c₄ :: x :: t := by
  rcases w with _ | ⟨c₁, _ | ⟨c₂, _ | ⟨c₃, _ | ⟨c₄, _ | ⟨x, t⟩⟩⟩⟩⟩
  · simp at h
  · simp at h
  · simp at h
  · simp at h
  · simp at h
  · exact ⟨c₁, c₂, c₃, c₄, x, t, rfl⟩

theorem hexDigit_lt {c : Char} {d : Nat} (h : hexDigit c = some d) :
    d < 16 := by
  unfold hexDigit at h
  split at h
  · next hc =>
      have hle : c.toNat ≤ '9'.toNat := hc.2
      cases h
      simp at hle ⊢
      omega
  · split at h
    · next hc =>
        have hle : c.toNat ≤ 'F'.toNat := hc.2
        cases h
        simp at hle ⊢
        omega
    · split at h
      · next hc =>
          have hle : c.toNat ≤ 'f'.toNat := hc.2
          cases h
          simp at hle ⊢
          omega
      · cases h

theorem hex4_lt (c₁ c₂ c₃ c₄ : Char) : hex4 c₁ c₂ c₃ c₄ < 0x10000 := by
  unfold hex4
  split
  · next h₁ h₂ h₃ h₄ =>
      have := hexDigit_lt h₁
      have := hexDigit_lt h₂
      have := hexDigit_lt h₃
      have := hexDigit_lt h₄
      omega
  · decide

/-- The second half of a pair, from behind the first. -/
theorem LiteralReading.pair {c₁ c₂ c₃ c₄ d₁ d₂ d₃ d₄ x : Char} {t : List Char}
    (hhigh : 0xD800 ≤ hex4 c₁ c₂ c₃ c₄ ∧ hex4 c₁ c₂ c₃ c₄ ≤ 0xDBFF)
    (hlow : 0xDC00 ≤ hex4 d₁ d₂ d₃ d₄ ∧ hex4 d₁ d₂ d₃ d₄ ≤ 0xDFFF) :
    LiteralReading
      ('\\' :: 'u' :: c₁ :: c₂ :: c₃ :: c₄ ::
        '\\' :: 'u' :: d₁ :: d₂ :: d₃ :: d₄ :: x :: t)
      ((encodeUtf8 (surrogatePair (hex4 c₁ c₂ c₃ c₄) (hex4 d₁ d₂ d₃ d₄))).map
        fun bytes => (bytes, 12)) := by
  cases hbytes : encodeUtf8
    (surrogatePair (hex4 c₁ c₂ c₃ c₄) (hex4 d₁ d₂ d₃ d₄)) with
  | none =>
      intro out h
      obtain ⟨_, _, _, _, _, _, heq, -, hne⟩ := h.of_pair hhigh
      cases heq
      exact hne hbytes
  | some bytes =>
      have hlen := (length_encodeUtf8 hbytes).1
      exact readsAs_pair hhigh hlow hbytes (by omega)

/-- The second sequence is there, or the text cannot be read. -/
theorem parseSecondCode_returns {w : List Char}
    (hu : b.content.drop p = w ++ rest) (hend : p + w.length = inputEnd + 1) :
    (parseSecondCode p inputEnd).Returns b fun r b' => b' = b ∧
      match r with
      | none =>
          ∀ d₁ d₂ d₃ d₄ x t, w = '\\' :: 'u' :: d₁ :: d₂ :: d₃ :: d₄ :: x :: t →
          ¬ (0xDC00 ≤ hex4 d₁ d₂ d₃ d₄ ∧ hex4 d₁ d₂ d₃ d₄ ≤ 0xDFFF)
      | some code => ∃ d₁ d₂ d₃ d₄ x t,
          w = '\\' :: 'u' :: d₁ :: d₂ :: d₃ :: d₄ :: x :: t ∧
          code = hex4 d₁ d₂ d₃ d₄ ∧
          (0xDC00 ≤ code ∧ code ≤ 0xDFFF) := by
  unfold parseSecondCode
  split
  · next hshort =>
      refine returns_pure ⟨rfl, ?_⟩
      rintro d₁ d₂ d₃ d₄ x t rfl
      simp only [List.length_cons] at hend
      omega
  · next hlong =>
      obtain ⟨c, d, w, rfl⟩ : ∃ c d v, w = c :: d :: v := by
        rcases w with _ | ⟨c, _ | ⟨d, w⟩⟩
        · simp at hend; omega
        · simp at hend; omega
        · exact ⟨c, d, w, rfl⟩
      obtain ⟨d₁, d₂, d₃, d₄, x, t, rfl⟩ := exists_five_cons (w := w)
        (by simp only [List.length_cons] at hend; omega)
      have hd := drop_succ_of_drop hu
      refine .step (byteAt_of_drop hu) ?_
      split
      · next hc =>
          refine returns_pure ⟨rfl, ?_⟩
          rintro _ _ _ _ _ _ heq
          cases heq
          exact absurd rfl hc
      · next hc =>
          refine .step (byteAt_of_drop hd) ?_
          split
          · next hd' =>
              refine returns_pure ⟨rfl, ?_⟩
              rintro _ _ _ _ _ _ heq
              cases heq
              exact absurd rfl hd'
          · next hd' =>
              refine .step (parseHex4_of_drop (drop_succ_of_drop hd)) ?_
              split
              · next hrange =>
                  refine returns_pure ⟨rfl, ?_⟩
                  rintro _ _ _ _ _ _ heq
                  cases heq
                  omega
              · next hrange =>
                  cases not_not.mp hc
                  cases not_not.mp hd'
                  exact returns_pure
                    ⟨rfl, d₁, d₂, d₃, d₄, x, t, rfl, rfl, by omega⟩

theorem utf16LiteralToUtf8_returns {w : List Char}
    (hu : b.content.drop p = '\\' :: 'u' :: w ++ rest)
    (hend : p + w.length + 1 = inputEnd) :
    (utf16LiteralToUtf8 p inputEnd).Returns b fun r b' =>
      b' = b ∧ LiteralReading ('\\' :: 'u' :: w) r := by
  unfold utf16LiteralToUtf8
  split
  · next hshort =>
      refine returns_pure ⟨rfl, fun out h => ?_⟩
      obtain ⟨c₁, c₂, c₃, c₄, x, t, rfl, -⟩ := h.of_unicode
      simp only [List.length_cons] at hend
      omega
  · next hlong =>
      obtain ⟨c₁, c₂, c₃, c₄, x, t, rfl⟩ := exists_five_cons (w := w) (by omega)
      have hw := drop_succ_of_drop (drop_succ_of_drop hu)
      refine .step (parseHex4_of_drop hw) ?_
      split
      · next hlow =>
          refine returns_pure ⟨rfl, fun out h => ?_⟩
          obtain ⟨_, _, _, _, _, _, heq, hnot⟩ := h.of_unicode
          cases heq
          exact hnot hlow
      · next hlow =>
          split
          · next hhigh =>
              have hx := drop_succ_of_drop (drop_succ_of_drop (drop_succ_of_drop
                (drop_succ_of_drop hw)))
              refine (parseSecondCode_returns hx
                (by simp at hend ⊢; omega)).bind ?_
              rintro (_ | code) s ⟨rfl, hcode⟩
              · refine returns_pure ⟨rfl, fun out h => ?_⟩
                obtain ⟨_, _, _, _, _, _, heq, hlow', -⟩ := h.of_pair hhigh
                exact hcode _ _ _ _ _ _ heq hlow'
              · obtain ⟨d₁, d₂, d₃, d₄, y, v, heq, rfl, hlow'⟩ := hcode
                cases heq
                exact returns_pure ⟨rfl, .pair hhigh hlow'⟩
          · next hhigh =>
              have hlt := hex4_lt c₁ c₂ c₃ c₄
              refine returns_pure ⟨rfl, ?_⟩
              cases hbytes : encodeUtf8 (hex4 c₁ c₂ c₃ c₄) with
              | none =>
                  have hgt := encodeUtf8_eq_none hbytes
                  omega
              | some bytes =>
                  exact readsAs_unicode (by omega) hbytes
                    ((length_encodeUtf8 hbytes).2 hlt)

end Escapes

/-! ## The second loop -/

theorem put_eq {b : ParseBuffer} {size : Nat} {output bytes : List Char}
    (h : output.length + bytes.length ≤ size) :
    put size output bytes b = .ok (output ++ bytes, b) := by
  rw [put, if_pos h]
  rfl

/-- The second loop, over a string `quoted` for which `room` bytes were asked
and one for the NUL: `u` is to be read and the output is what has been. -/
structure UnescapeAt (b : ParseBuffer) (quoted : List Char)
    (room inputEnd : Nat) (st : Nat × List Char) (u : List Char) : Prop where
  text : ∃ rest, b.content.drop st.1 = u ++ rest
  pos : st.1 + u.length = inputEnd + 1
  decodes : ∀ out, Decodes quoted out ↔ ∃ o, Decodes u o ∧ out = st.2 ++ o
  room : ∃ f, st.2.length + u.length ≤ room + escapes f u

/-- How the second loop is left. -/
def UnescapeDone (quoted : List Char) (room : Nat)
    (r : Nat × Option (List Char)) : Prop :=
  match r.2 with
  | none => ∀ out, ¬ Decodes quoted out
  | some output => Decodes quoted output ∧ output.length ≤ room

section Unescape

variable {b : ParseBuffer} {quoted u output bytes : List Char}
  {room inputEnd p n : Nat} {c d : Char}

theorem UnescapeAt.read (h : UnescapeAt b quoted room inputEnd (p, output) u)
    (hr : ReadsAs u n bytes) :
    UnescapeAt b quoted room inputEnd (p + n, output ++ bytes) (u.drop n) where
  text := by
    obtain ⟨rest, htext⟩ := h.text
    refine ⟨rest, ?_⟩
    rw [← List.drop_drop, htext, List.drop_append_of_le_length hr.le]
  pos := by
    have hpos := h.pos
    have hle := hr.le
    simp only [List.length_drop] at hpos ⊢
    omega
  decodes out := by
    rw [h.decodes]
    constructor
    · rintro ⟨o, ho, rfl⟩
      obtain ⟨o', ho', rfl⟩ := (hr.decodes o).mp ho
      exact ⟨o', ho', (List.append_assoc _ _ _).symm⟩
    · rintro ⟨o, ho, rfl⟩
      exact ⟨bytes ++ o, (hr.decodes _).mpr ⟨o, ho, rfl⟩,
        List.append_assoc _ _ _⟩
  room := by
    obtain ⟨f, hf⟩ := h.room
    obtain ⟨f', hf'⟩ := hr.room f
    refine ⟨f', ?_⟩
    have hle := hr.le
    simp only [List.length_append, List.length_drop] at hf ⊢
    omega

/-- No more is written than there is room for, with the NUL still to come. -/
theorem UnescapeAt.length_le {st : Nat × List Char}
    (h : UnescapeAt b quoted room inputEnd st u) : st.2.length ≤ room := by
  obtain ⟨f, hf⟩ := h.room
  have hle := escapes_le f u
  omega

/-- A turn that reads something writes it and goes on. -/
theorem UnescapeAt.put_again
    (h : UnescapeAt b quoted room inputEnd (p, output) u)
    (hr : ReadsAs u n bytes) (hp : p < inputEnd) :
    (do
      let output ← put (room + 1) output bytes
      pure (.again (p + n, output)) :
        Parsing (Turn (Nat × List Char) (Nat × Option (List Char)))).Returns b
      (TurnPost
        (fun st s => s = b ∧ ∃ u, UnescapeAt b quoted room inputEnd st u)
        (fun st _ => inputEnd + 1 - st.1)
        (fun r s => s = b ∧ UnescapeDone quoted room r)
        (inputEnd + 1 - p)) := by
  have hnext := h.read hr
  have hlen := hnext.length_le
  simp only [List.length_append] at hlen
  refine .step (put_eq (by omega)) (returns_again ⟨rfl, _, hnext⟩ ?_)
  have hpos := hr.pos
  simp only
  omega

theorem unescapeTurn_returns (st : Nat × List Char)
    (h : UnescapeAt b quoted room inputEnd st u) :
    (unescapeTurn (room + 1) inputEnd st).Returns b
      (TurnPost
        (fun st s => s = b ∧ ∃ u, UnescapeAt b quoted room inputEnd st u)
        (fun st _ => inputEnd + 1 - st.1)
        (fun r s => s = b ∧ UnescapeDone quoted room r)
        (inputEnd + 1 - st.1)) := by
  obtain ⟨p, output⟩ := st
  obtain ⟨rest, htext⟩ := h.text
  have hpos := h.pos
  unfold unescapeTurn
  simp only at htext hpos ⊢
  split
  · next hp =>
      obtain ⟨c, d, u, rfl⟩ : ∃ c d w, u = c :: d :: w := by
        rcases u with _ | ⟨c, _ | ⟨d, u⟩⟩
        · simp at hpos; omega
        · simp at hpos; omega
        · exact ⟨c, d, u, rfl⟩
      refine .step (byteAt_of_drop htext) ?_
      split
      · next hc => exact h.put_again (readsAs_plain hc) hp
      · next hc =>
          cases not_not.mp hc
          rw [if_neg (by omega)]
          refine .step (byteAt_of_drop (drop_succ_of_drop htext)) ?_
          split
          · next hd =>
              subst hd
              refine (utf16LiteralToUtf8_returns htext
                (by simp at hpos; omega)).bind ?_
              rintro (_ | ⟨bytes, n⟩) s ⟨rfl, hr⟩
              · refine returns_done ⟨rfl, fun out hout => ?_⟩
                obtain ⟨o, ho, -⟩ := (h.decodes out).mp hout
                exact hr o ho
              · exact h.put_again hr hp
          · next hd =>
              cases he : simpleEscape d with
              | none =>
                  refine returns_done ⟨rfl, fun out hout => ?_⟩
                  obtain ⟨o, ho, -⟩ := (h.decodes out).mp hout
                  exact not_decodes_unknown hd he ho
              | some e => exact h.put_again (readsAs_simple he) hp
  · next hp =>
      refine returns_done ⟨rfl, ?_, h.length_le⟩
      rw [h.decodes]
      refine ⟨[], ?_, (List.append_nil _).symm⟩
      rcases u with _ | ⟨c, _ | ⟨d, u⟩⟩
      · exact .passed
      · exact .close
      · simp at hpos; omega

end Unescape

theorem escapes_quote (f : Bool) (body : List Char) :
    escapes f (body ++ ['"']) = escapes f body := by
  induction body generalizing f with
  | nil => cases f <;> rfl
  | cons c body ih =>
      cases f with
      | true => exact ih false
      | false =>
          rw [List.cons_append, escapes, escapes]
          split
          · rw [ih true]
          · rw [ih false]

/-- Where the second loop begins. -/
theorem unescapeAt_start {b : ParseBuffer} {p : Nat} {body rest : List Char}
    (h : b.content.drop p = body ++ '"' :: rest) :
    UnescapeAt b (body ++ ['"']) (body.length + 1 - escapes false body)
      (p + body.length)
      (p, []) (body ++ ['"']) where
  text := ⟨rest, by rw [h, List.append_assoc]; rfl⟩
  pos := by simp; omega
  decodes out := by
    constructor
    · intro h
      exact ⟨out, h, rfl⟩
    · rintro ⟨o, h, rfl⟩
      exact h
  room := by
    have hle := escapes_le false body
    refine ⟨false, ?_⟩
    rw [escapes_quote]
    simp
    omega

theorem unescape_returns {b : ParseBuffer} {p : Nat} {body rest : List Char}
    (h : b.content.drop p = body ++ '"' :: rest) :
    (loop .endless (unescapeTurn (body.length + 1 - escapes false body + 1)
        (p + body.length)) (b.length + 1) (p, [])).Returns b fun r s =>
      s = b ∧
      UnescapeDone (body ++ ['"'])
        (body.length + 1 - escapes false body) r := by
  refine returns_loop
    (fun st s => s = b ∧ ∃ u, UnescapeAt b (body ++ ['"'])
      (body.length + 1 - escapes false body) (p + body.length) st u)
    (fun st _ => p + body.length + 1 - st.1) ?_ ⟨rfl, _, unescapeAt_start h⟩ ?_
  · rintro st s ⟨rfl, u, hu⟩
    exact unescapeTurn_returns st hu
  · have hlen := congrArg List.length h
    simp only [List.length_drop, List.length_append, List.length_cons] at hlen
    simp only [ParseBuffer.length]
    omega

/-! ## `parse_string` -/

theorem allocate_eq (b : ParseBuffer) :
    allocate b =
      .ok (b.heap.allocate.1, { b with heap := b.heap.allocate.2 }) := rfl

theorem deallocate_returns {b : ParseBuffer} {h : Heap} {ptr : Nat}
    {blocks : List Nat} (hg : h.Gains b.heap (ptr :: blocks)) :
    (deallocate ptr).Returns b fun _ b' =>
      ∃ heap, b' = { b with heap := heap } ∧ h.Gains heap blocks ∧
        heap.asked = b.heap.asked := by
  obtain ⟨heap, hfree, hgains, hasked⟩ := hg.free
  unfold deallocate
  refine returns_get_bind ?_
  rw [hfree]
  exact returns_modify ⟨heap, rfl, hgains, hasked⟩

/-- What `parse_string` does at `t`: it reads a string of the language and owns
one block more, or it owns what it did, and then there was no memory or there is
no such string. -/
def StringPost (round : Rat → Double) (b : ParseBuffer) (t : List Char)
    (item : Item) (r : Option Item) (b' : ParseBuffer) : Prop :=
  b'.content = b.content ∧ b'.depth = b.depth ∧
  match r with
  | none => b.heap.Gains b'.heap [] ∧
      (b.heap.Refused b'.heap ∨ ∀ s t', ¬ (lexicon round).string t s t')
  | some i => ∃ ptr s t', (lexicon round).string t s t' ∧ b'.At t' ∧
      t'.length ≤ t.length ∧ b.heap.Gains b'.heap [ptr] ∧
      i = { item with type := .string, valuestring := some (ptr, s) }

theorem parseString_returns (round : Rat → Double) {b : ParseBuffer}
    {t : List Char} (item : Item) (hat : b.At t) :
    (parseString item).Returns b (StringPost round b t item) := by
  unfold parseString
  refine returns_get_bind ?_
  refine .step (bufferAtOffset_of_at hat) ?_
  split
  · next hc =>
      refine returns_modify_bind (returns_pure ⟨rfl, rfl, .refl _, .inr ?_⟩)
      rintro s t' ⟨u, _, _, rfl, _⟩
      exact hc rfl
  · next hc =>
      obtain ⟨u, rfl⟩ : ∃ u, t = '"' :: u := by
        cases t with
        | nil => exact absurd (not_not.mp hc) (by decide)
        | cons c u => exact ⟨u, by rw [← not_not.mp hc]; rfl⟩
      have hu : b.content.drop (b.offset + 1) = u ++ [nul] :=
        drop_succ_of_drop hat.rest
      have hlen := hat.length
      refine (scanString_returns (by omega)).bind ?_
      rintro (_ | ⟨inputEnd, skipped⟩) s ⟨rfl, hscan⟩
      · refine returns_modify_bind (returns_pure ⟨rfl, rfl, .refl _, .inr ?_⟩)
        rintro _ t' ⟨u', body, out, hu', hsplit, _, _⟩
        cases hu'
        rw [hu, splitString_nul, hsplit] at hscan
        cases hscan
      · obtain ⟨body₀, rest, hsplit, rfl, rfl⟩ := hscan
        have hbody := splitString_eq hsplit
        rw [hu, splitString_nul, Option.map_eq_some_iff] at hsplit
        obtain ⟨⟨body, t'⟩, hsplit, heq⟩ := hsplit
        obtain ⟨rfl, rfl⟩ : body = body₀ ∧ t' ++ [nul] = rest := Prod.mk.inj heq
        have hsize :
            s.offset + 1 + body.length - s.offset - escapes false body =
            body.length + 1 - escapes false body := by omega
        simp only [hsize]
        refine .step (allocate_eq s) ?_
        rcases halloc : s.heap.allocate with ⟨_ | ptr, heap⟩
        · obtain ⟨hgains, hrefused⟩ := Heap.allocate_none halloc
          exact returns_modify_bind
            (returns_pure ⟨rfl, rfl, hgains, .inl hrefused⟩)
        · have hgains := Heap.allocate_some halloc
          refine (unescape_returns (b := { s with heap := heap }) hbody).bind ?_
          rintro ⟨q, _ | output⟩ s' ⟨rfl, hdone⟩
          · refine (deallocate_returns (b := { s with heap := heap })
              hgains).bind ?_
            rintro _ s' ⟨heap', rfl, hgains', -⟩
            refine returns_modify_bind
              (returns_pure ⟨rfl, rfl, hgains', .inr ?_⟩)
            rintro _ t'' ⟨u', body', out, hu', hsplit', hout, -⟩
            cases hu'
            rw [hsplit] at hsplit'
            cases hsplit'
            exact hdone out hout
          · obtain ⟨hdecodes, hroom⟩ := hdone
            have hu' := splitString_eq hsplit
            refine .step (put_eq (by simp only [List.length_singleton]; omega))
              ?_
            refine returns_modify_bind (returns_pure
              ⟨rfl, rfl, ptr, _, t',
                ⟨u, body, output, rfl, hsplit, hdecodes, rfl⟩, ?_, ?_,
                hgains, rfl⟩)
            · have hat' : s.At (('"' :: body ++ ['"']) ++ t') := by
                rw [hu'] at hat
                simpa using hat
              refine hat'.drop rfl ?_
              simp only [List.length_append, List.length_cons, List.length_nil]
              omega
            · rw [hu']
              simp
              omega

end GhostDataplane.Engine
