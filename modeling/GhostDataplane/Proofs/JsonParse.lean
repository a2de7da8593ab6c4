import GhostDataplane.Proofs.JsonString

/-!
# Parsing a value

Each function of the parser is compared with the language it should read. Where
a function is called, `t` is left of the text; it comes back with an item and
then `t` begins with a value that the item carries, or without one. A failure
has one of two reasons. There is no value at the beginning of `t`, or the heap
has refused a request.

The blocks are accounted for on the way. A function that fails has given back
what it took, and one that succeeds has gained the blocks that the item points
to and nothing else. No read is outside the text, since after white space has
been skipped the offset is at the NUL at the latest, and no function goes on
from the NUL.

The recursion is on the depth. The depth that the buffer counts and the depth
that the grammar still allows add up to the limit, which is why one call more
than that is enough.
-/

namespace GhostDataplane.Engine

open GhostDataplane.Lib
open GhostDataplane.Lib.Checked

/-! ## Looking at what is next -/

section Next

variable {b : ParseBuffer} {t : List Char} {c : Char}

theorem atChar_of_at (h : b.At t) (hc : c ≠ nul) :
    atChar c b = .ok (t.head? == some c, b) := by
  unfold atChar
  rw [get_bind, if_pos (canAccess_of_at h), bind_eq (bufferAtOffset_of_at h)]
  cases t with
  | nil =>
      have hne : (nul == c) = false := by simpa using hc.symm
      show Except.ok (nul == c, b) = _
      rw [hne]
      rfl
  | cons d t =>
      show Except.ok (d == c, b) = _
      simp

theorem atNumber_of_at (h : b.At t) :
    atNumber b = .ok (t.head?.any Json.startsNumber, b) := by
  unfold atNumber
  rw [get_bind, if_pos (canAccess_of_at h), bind_eq (bufferAtOffset_of_at h)]
  cases t with
  | nil => rfl
  | cons d t => rfl

theorem strncmp_of_drop {p : Nat} {word : List Char} (hw : nul ∉ word)
    (hlen : word.length ≤ t.length + 1) (h : b.content.drop p = t ++ [nul]) :
    strncmp p word b = .ok (word.isPrefixOf t, b) := by
  induction word generalizing p t with
  | nil => simp [strncmp]; rfl
  | cons c word ih =>
      have hc : c ≠ nul := fun hc => hw (hc ▸ List.mem_cons_self)
      cases t with
      | nil =>
          rw [strncmp, bind_eq (byteAt_of_drop h),
            if_neg (by simpa using hc.symm)]
          rfl
      | cons d t =>
          rw [strncmp, bind_eq (byteAt_of_drop h)]
          split
          · next hd =>
              rw [ih (fun hn => hw (List.mem_cons_of_mem _ hn))
                (by simpa using hlen) (drop_succ_of_drop h), List.isPrefixOf,
                BEq.comm, hd, Bool.true_and]
          · next hd =>
              rw [List.isPrefixOf, BEq.comm, Bool.eq_false_iff.mpr hd,
                Bool.false_and]
              rfl

theorem reads_of_at {word : List Char} (hw : nul ∉ word) (h : b.At t) :
    reads word b = .ok (word.isPrefixOf t, b) := by
  have hlen := h.length
  unfold reads
  rw [get_bind]
  split
  · next hread =>
      have hread := of_decide_eq_true hread
      exact strncmp_of_drop hw (by omega) h.rest
  · next hread =>
      have hread : ¬ b.offset + word.length ≤ b.length := by
        simpa [ParseBuffer.canRead] using hread
      have hno : word.isPrefixOf t = false := by
        rw [Bool.eq_false_iff]
        intro hp
        have := (List.isPrefixOf_iff_prefix.mp hp).length_le
        omega
      rw [hno]
      rfl

end Next

/-! ## White space -/

section Skip

variable {b : ParseBuffer} {t : List Char}

/-- The loop over white space: what is behind the offset is white space, and the
NUL may be part of it. -/
structure SkipAt (b : ParseBuffer) (t : List Char) (s : ParseBuffer)
    (u r : List Char) : Prop where
  text : t ++ [nul] = u ++ r
  blank : ∀ c ∈ u, c.toNat ≤ 32
  eq : s = { b with offset := b.offset + u.length }

theorem SkipAt.drop {s : ParseBuffer} {u r : List Char} (hat : b.At t)
    (h : SkipAt b t s u r) : s.content.drop s.offset = r := by
  rw [h.eq]
  show b.content.drop (b.offset + u.length) = r
  rw [← List.drop_drop, hat.rest, h.text, List.drop_left]

/-- After the loop the offset is at the first character that is not white space,
or behind the NUL and then one step back. -/
theorem SkipAt.finish (round : Rat → Double) {s : ParseBuffer} {u r : List Char}
    (hat : b.At t) (h : SkipAt b t s u r) (hr : ∀ c ∈ r.head?, ¬ c.toNat ≤ 32) :
    (if s.offset = s.length then stepBack else pure () : Parsing Unit).Returns s
      fun _ b' => ∃ o, b' = { b with offset := o } ∧
        b'.At ((lexicon round).skip t) := by
  have hlen := hat.length
  have htext := congrArg List.length h.text
  have hoffset : s.offset = b.offset + u.length := by rw [h.eq]
  have hslen : s.length = b.length := by rw [h.eq]; rfl
  simp only [List.length_append, List.length_singleton] at htext
  rcases List.eq_nil_or_concat' r with rfl | ⟨r', c, rfl⟩
  · have hblank : (lexicon round).skip t = [] := by
      refine List.dropWhile_eq_nil_iff.mpr fun c hc =>
        decide_eq_true (h.blank c ?_)
      rw [← List.append_nil u, ← h.text]
      exact List.mem_append_left _ hc
    simp only [List.length_nil, Nat.add_zero] at htext
    rw [if_pos (by omega), hblank]
    refine returns_modify ⟨b.offset + t.length, ?_, ?_⟩
    · rw [hoffset, h.eq, ← htext]
      rfl
    · refine ParseBuffer.At.drop (b := b) (u := t) (by rwa [List.append_nil])
        (by rw [h.eq]) ?_
      show s.offset - 1 = _
      omega
  · obtain ⟨rfl, hc⟩ : t = u ++ r' ∧ nul = c := by
      have hlast :=
        List.append_inj' (h.text.trans (List.append_assoc u r' [c]).symm) rfl
      exact ⟨hlast.1, by simpa using hlast.2⟩
    have hhead : ∀ d ∈ r'.head?, ¬ d.toNat ≤ 32 := by
      cases r' with
      | nil => exact fun _ hd => by cases hd
      | cons d r' => exact hr
    have hskip : (lexicon round).skip (u ++ r') = r' := by
      refine (List.dropWhile_append_of_pos fun d hd =>
        decide_eq_true (h.blank d hd)).trans ?_
      cases r' with
      | nil => rfl
      | cons d r' =>
          exact List.dropWhile_cons_of_neg fun hd =>
            hhead d rfl (of_decide_eq_true hd)
    simp only [List.length_append, List.length_singleton] at htext hlen
    rw [if_neg (by omega), hskip]
    exact returns_pure ⟨_, h.eq, hat.drop (by rw [h.eq]) hoffset⟩

theorem bufferSkipWhitespace_returns (round : Rat → Double) (hat : b.At t) :
    bufferSkipWhitespace.Returns b fun _ b' =>
      ∃ o, b' = { b with offset := o } ∧ b'.At ((lexicon round).skip t) := by
  unfold bufferSkipWhitespace
  refine returns_get_bind ?_
  refine Returns.bind
    (P := fun _ s => ∃ u r, SkipAt b t s u r ∧ ∀ c ∈ r.head?, ¬ c.toNat ≤ 32)
    (returns_loop (fun _ s => ∃ u r, SkipAt b t s u r)
      (fun _ s => s.length - s.offset)
      ?_ ⟨[], t ++ [nul], rfl, List.forall_mem_nil _, rfl⟩
      (Nat.lt_succ_of_le (Nat.sub_le _ _))) ?_
  · rintro - s ⟨u, r, h⟩
    have hdrop := h.drop hat
    refine returns_get_bind ?_
    split
    · next hacc =>
        have hlt : s.offset + 0 < s.length := of_decide_eq_true hacc
        obtain ⟨c, r, rfl⟩ : ∃ c r', r = c :: r' := by
          refine List.exists_cons_of_ne_nil fun hnil => ?_
          rw [hnil] at hdrop
          have := List.drop_eq_nil_iff.mp hdrop
          simp only [ParseBuffer.length] at hlt
          omega
        have hc : bufferAtOffset 0 s = .ok (c, s) := byteAt_of_drop hdrop
        refine .step hc ?_
        split
        · next hle =>
            refine returns_modify_bind
              (returns_again ⟨u ++ [c], r, ?_, ?_, ?_⟩ ?_)
            · rw [h.text, List.append_assoc]; rfl
            · intro d hd
              rcases List.mem_append.mp hd with hd | hd
              · exact h.blank d hd
              · cases List.mem_singleton.mp hd
                exact hle
            · rw [h.eq]
              simp [Nat.add_assoc]
            · simp only [ParseBuffer.length] at hlt ⊢
              omega
        · next hle =>
            exact returns_done ⟨u, _, h, fun d hd => by cases hd; exact hle⟩
    · next hacc =>
        have hge : ¬ s.offset + 0 < s.length :=
          fun hlt => hacc (decide_eq_true hlt)
        have hnil : r = [] := by
          rw [← hdrop]
          exact List.drop_eq_nil_of_le
            (by simp only [ParseBuffer.length] at hge; omega)
        exact returns_done
          ⟨u, r, h, by rw [hnil]; exact fun _ hd => by cases hd⟩
  · rintro - s ⟨u, r, h, hr⟩
    exact returns_get_bind (h.finish round hat hr)

end Skip

/-! ## Numbers -/

section Number

variable {b : ParseBuffer} {t w : List Char}

theorem copyNumber_of_drop (room : Nat) {i : Nat}
    (h : b.content.drop (b.offset + i) = w ++ [nul]) :
    copyNumber room i b = .ok ((w.takeWhile isNumberChar).take room, b) := by
  induction room generalizing i w with
  | zero => rfl
  | succ room ih =>
      have hlen := congrArg List.length h
      simp only [List.length_drop, List.length_append, List.length_singleton]
        at hlen
      have hacc : b.canAccessAtIndex i = true :=
        decide_eq_true (by simp only [ParseBuffer.length]; omega)
      rw [copyNumber, get_bind, if_pos hacc]
      cases w with
      | nil =>
          have hc : bufferAtOffset i b = .ok (nul, b) := byteAt_of_drop h
          rw [bind_eq hc]
          rfl
      | cons c w =>
          have hc : bufferAtOffset i b = .ok (c, b) := byteAt_of_drop h
          rw [bind_eq hc]
          split
          · next hnum =>
              rw [bind_eq (ih (i := i + 1) (drop_succ_of_drop h)),
                List.takeWhile_cons_of_pos hnum]
              rfl
          · next hnum =>
              rw [List.takeWhile_cons_of_neg hnum]
              rfl

/-- What a function does that is to read a value at `t` into `item`. -/
def ValuePost (value : List Char → CJson → List Char → Prop) (b : ParseBuffer)
    (t : List Char) (item : Item) (r : Option Item) (b' : ParseBuffer) : Prop :=
  b'.content = b.content ∧
  match r with
  | none => b.heap.Gains b'.heap [] ∧
      (b.heap.Refused b'.heap ∨ ∀ v t', ¬ value t v t')
  | some i => ∃ v t', value t v t' ∧ b'.At t' ∧ t'.length ≤ t.length ∧
      b'.depth = b.depth ∧ Carries i v ∧ i.ptr = item.ptr ∧
      i.string = item.string ∧
      b.heap.Gains b'.heap (itemsBlocks i.child ++ stringBlock i.valuestring)

/-- The fields for the value are as `memset` left them. -/
structure Fresh (item : Item) : Prop where
  valuestring : item.valuestring = none
  valueint : item.valueint = 0
  valuedouble : item.valuedouble = .finite 0
  child : item.child = []

theorem strtod_length_le {round : Rat → Double} {text : List Char} {x : Double}
    {length : Nat} (h : strtod round text = some (x, length)) :
    length ≤ text.length := by
  obtain ⟨r, -, heq⟩ := Option.map_eq_some_iff.mp h
  cases heq
  exact Nat.sub_le _ _

theorem length_numberRun_le (t : List Char) : (numberRun t).length ≤ t.length :=
  ((List.take_prefix _ _).trans (List.takeWhile_prefix _)).length_le

theorem parseNumber_returns (round : Rat → Double) {item : Item}
    (hitem : Fresh item) (hat : b.At t)
    (hhead : t.head?.any Json.startsNumber = true) :
    (parseNumber round item).Returns b
      (ValuePost (Json.Atom (lexicon round) values) b t item) := by
  obtain ⟨c, u, rfl, hc⟩ : ∃ c u, t = c :: u ∧ Json.startsNumber c = true := by
    cases t with
    | nil => cases hhead
    | cons c u => exact ⟨c, u, rfl, hhead⟩
  unfold parseNumber
  have hcopy : copyNumber (numberCStringSize - 1) 0 b =
      .ok (numberRun (c :: u), b) :=
    copyNumber_of_drop (numberCStringSize - 1) hat.rest
  refine .step hcopy ?_
  cases hx : strtod round (numberRun (c :: u)) with
  | none =>
      refine returns_pure ⟨rfl, .refl _, .inr fun v t' h => ?_⟩
      obtain ⟨x, _, _, _, -, -, hx', -⟩ := h.of_number hc
      rw [hx] at hx'
      cases hx'
  | some r =>
      obtain ⟨x, length⟩ := r
      have hle : length ≤ (c :: u).length :=
        (strtod_length_le hx).trans (length_numberRun_le _)
      refine returns_modify_bind (returns_pure
        ⟨rfl, .number x, (c :: u).drop length,
          .number ⟨c, u, length, rfl, hc, hx, rfl⟩, ?_, ?_,
          rfl, .mk rfl ?_ rfl rfl ?_, rfl, rfl, ?_⟩)
      · have hsplit : b.At ((c :: u).take length ++ (c :: u).drop length) := by
          rwa [List.take_append_drop]
        exact hsplit.drop rfl (by rw [List.length_take_of_le hle])
      · exact (List.drop_sublist _ _).length_le
      · rw [hitem.valuestring]
        rfl
      · rw [hitem.child]
        exact .nil
      · rw [hitem.child, hitem.valuestring]
        exact .refl _

end Number

end GhostDataplane.Engine
