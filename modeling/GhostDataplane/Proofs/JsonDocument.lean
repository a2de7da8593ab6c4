import GhostDataplane.Proofs.JsonItems

/-!
# Parsing a document

The recursion is closed here, and what `cJSON_Parse` does to a text and a heap
follows from what its parts do.
-/

namespace GhostDataplane.Engine

open GhostDataplane.Lib
open GhostDataplane.Lib.Checked

section Value

variable {round : Rat → Double} {n depth levels : Nat} {b : ParseBuffer}
  {t : List Char} {item : Item} {value : Item → Parsing (Option Item)}

/-! ## Arrays and objects -/

theorem jsonValue_functional (n : Nat) : Json.Functional (JsonValue round n) :=
  Json.Value.functional (lexicon_isFunctional round) n

theorem jsonValue_isElement :
    Json.IsItem (lexicon round) ']'
      (Json.Element (lexicon round) (JsonValue round n)) :=
  Json.Element.isItem (jsonValue_functional n) fun _ _ _ =>
    Json.Value.not_bracket

theorem jsonValue_isMember :
    Json.IsItem (lexicon round) '}'
      (Json.Member (lexicon round) (JsonValue round n)) :=
  Json.Member.isItem (lexicon_isFunctional round) (jsonValue_functional n)

/-- A list between brackets is a value, once it is known which. -/
theorem ListPost.toValue {α : Type} {rel : List Char → α → List Char → Prop}
    {view : α → Option CString × CJson} {make : List α → CJson}
    {opening closing : Char} {type : ItemType} {r : Option Item}
    {b' : ParseBuffer} (hitem : Fresh item)
    (h : ListPost round closing rel view { b with depth := b.depth + 1 } t
      item type r b')
    (hread : ∀ v t', JsonValue round (n + 1) (opening :: t) v t' ↔
      ∃ as, v = make as ∧ Json.Bracketed (lexicon round) closing rel t as t')
    (hmake : ∀ head as, CarriesAll head (as.map view) →
      Carries { item with type := type, child := head } (make as)) :
    ValuePost (JsonValue round (n + 1)) b (opening :: t) item r b' := by
  obtain ⟨hcontent, h⟩ := h
  refine ⟨hcontent, ?_⟩
  cases r with
  | none =>
      refine ⟨h.1, h.2.imp_right fun hno v t' hv => ?_⟩
      obtain ⟨as, -, has⟩ := (hread v t').mp hv
      exact hno as t' has
  | some i =>
      obtain ⟨head, as, t', has, hat, hle, hdepth, hcarries, hgains, rfl⟩ := h
      refine ⟨make as, t', (hread _ _).mpr ⟨as, rfl, has⟩, hat,
        Nat.le_succ_of_le hle, hdepth, hmake head as hcarries, rfl, rfl, ?_⟩
      simpa [hitem.valuestring, stringBlock] using hgains

theorem Fresh.carries {v : CJson} (hitem : Fresh item) {type : ItemType}
    {head : List Item} (htype : type = v.itemType)
    (hstring : v.valueString = none) (hint : v.valueInt = 0)
    (hdouble : v.valueDouble = .finite 0) (hchild : CarriesAll head v.child) :
    Carries { item with type := type, child := head } v :=
  .mk htype (by rw [hstring, hitem.valuestring]; rfl)
    (by rw [hint, hitem.valueint])
    (by rw [hdouble, hitem.valuedouble]) hchild

theorem parseArray_returns (hvalue : ReadsValues round n (depth + 1) value)
    (hitem : Fresh item) (hdepth : b.depth = depth) (hlt : depth < nestingLimit)
    (hat : b.At ('[' :: t)) :
    (parseArray value item).Returns b
      (ValuePost (JsonValue round (n + 1)) b ('[' :: t) item) := by
  unfold parseArray
  refine returns_get_bind ?_
  rw [if_neg (by omega)]
  refine returns_modify_bind ?_
  have hat' : ({ b with depth := b.depth + 1 } : ParseBuffer).At ('[' :: t) :=
    ParseBuffer.At.drop (u := []) hat rfl rfl
  have hnext : ({ b with depth := b.depth + 1 } : ParseBuffer).AtNext t :=
    ParseBuffer.At.drop (u := ['[']) hat rfl rfl
  refine .step (bufferAtOffset_of_at hat') ?_
  rw [List.headD_cons, if_neg (not_not_intro rfl)]
  refine (parseItems_returns jsonValue_isElement (by decide)
    (fun items s t h hd =>
      arrayTurn_returns hvalue h (hd.trans (by rw [hdepth])))
    hnext).mono fun r b' h =>
      h.toValue hitem (fun v t' => Json.Value.array_iff) ?_
  intro head as hcarries
  exact hitem.carries rfl rfl rfl rfl hcarries

theorem parseObject_returns (hvalue : ReadsValues round n (depth + 1) value)
    (hitem : Fresh item) (hdepth : b.depth = depth) (hlt : depth < nestingLimit)
    (hat : b.At ('{' :: t)) :
    (parseObject value item).Returns b
      (ValuePost (JsonValue round (n + 1)) b ('{' :: t) item) := by
  unfold parseObject
  refine returns_get_bind ?_
  rw [if_neg (by omega)]
  refine returns_modify_bind ?_
  have hat' : ({ b with depth := b.depth + 1 } : ParseBuffer).At ('{' :: t) :=
    ParseBuffer.At.drop (u := []) hat rfl rfl
  have hnext : ({ b with depth := b.depth + 1 } : ParseBuffer).AtNext t :=
    ParseBuffer.At.drop (u := ['{']) hat rfl rfl
  refine .step (atChar_of_at hat' (by decide)) ?_
  rw [List.head?_cons, if_pos (beq_self_eq_true _)]
  refine (parseItems_returns jsonValue_isMember (by decide)
    (fun items s t h hd =>
      objectTurn_returns hvalue h (hd.trans (by rw [hdepth])))
    hnext).mono fun r b' h =>
      h.toValue hitem (fun v t' => Json.Value.object_iff) ?_
  intro head as hcarries
  exact hitem.carries rfl rfl rfl rfl hcarries

/-- At the limit neither goes on. -/
theorem limit_returns {c : Char} (hc : Json.startsAtom c = false) :
    (pure none : Parsing (Option Item)).Returns b
      (ValuePost (JsonValue round 0) b (c :: t) item) :=
  returns_pure ⟨rfl, .refl _, .inr fun _ _ => Json.Atom.not_cons hc⟩

/-! ## A value -/

/-- A word of the language. -/
theorem word_returns (word : List Char) {t' : List Char} {v : CJson} {i : Item}
    (hat : b.At (word ++ t'))
    (hv : Json.Atom (lexicon round) values (word ++ t') v t')
    (hcarries : Carries i v) (hptr : i.ptr = item.ptr)
    (hstring : i.string = item.string) (hchild : i.child = [])
    (hvaluestring : i.valuestring = none) :
    (do
      advance word.length
      pure (some i) : Parsing (Option Item)).Returns b
      (ValuePost (JsonValue round n) b (word ++ t') item) := by
  refine returns_modify_bind
    (returns_pure ⟨rfl, v, t', hv.toValue, hat.drop rfl rfl, ?_, rfl,
    hcarries, hptr, hstring, ?_⟩)
  · simp
  · rw [hchild, hvaluestring]
    exact .refl _

/-- The string at the beginning of the text is the value. -/
theorem StringPost.toValue {r : Option Item} {b' : ParseBuffer}
    (hitem : Fresh item) (h : StringPost round b ('"' :: t) item r b') :
    ValuePost (JsonValue round n) b ('"' :: t) item r b' := by
  obtain ⟨hcontent, hdepth, h⟩ := h
  refine ⟨hcontent, ?_⟩
  cases r with
  | none =>
      refine ⟨h.1, h.2.imp_right fun hno v t' hv => ?_⟩
      rcases hv.cases with hv | ⟨m, -, hv⟩
      · obtain ⟨s, hs⟩ := hv.of_string
        exact hno s t' hs
      · cases hv
  | some i =>
      obtain ⟨ptr, s, t', hs, hat, hle, hgains, rfl⟩ := h
      refine ⟨.string s, t', Json.Atom.toValue (.string hs), hat, hle, hdepth,
        .mk rfl rfl hitem.valueint hitem.valuedouble ?_, rfl, rfl, ?_⟩
      · rw [hitem.child]
        exact .nil
      · rw [hitem.child]
        exact hgains

/-- A number at the beginning of the text is the value. -/
theorem ValuePost.atom {r : Option Item} {b' : ParseBuffer}
    (h : ValuePost (Json.Atom (lexicon round) values) b t item r b')
    (hhead : t.head?.any Json.startsNumber = true) :
    ValuePost (JsonValue round n) b t item r b' := by
  obtain ⟨hcontent, h⟩ := h
  refine ⟨hcontent, ?_⟩
  cases r with
  | none =>
      refine ⟨h.1, h.2.imp_right fun hno v t' hv => ?_⟩
      rcases hv.cases with hv | ⟨m, -, hv⟩
      · exact hno v t' hv
      · obtain ⟨c, u, rfl, hc⟩ := hv.head
        rcases hc with rfl | rfl
        · cases hhead
        · cases hhead
  | some i =>
      obtain ⟨v, t', hv, rest⟩ := h
      exact ⟨v, t', hv.toValue, rest⟩

theorem parseValue_returns (round : Rat → Double) (hn : n ≤ nestingLimit)
    (hlevels : n < levels) :
    ReadsValues round n (nestingLimit - n) (parseValue round levels) := by
  induction levels generalizing n with
  | zero => exact absurd hlevels (Nat.not_lt_zero _)
  | succ levels ih =>
      have hinner : ∀ m, n = m + 1 →
          ReadsValues round m (nestingLimit - n + 1)
            (parseValue round levels) := by
        intro m hm
        rw [show nestingLimit - n + 1 = nestingLimit - m by omega]
        exact ih (by omega) (by omega)
      intro item b t hitem hat hdepth
      rw [parseValue]
      refine .step (reads_of_at (by decide) hat) ?_
      split
      · next hnull =>
          obtain ⟨t', rfl⟩ := List.isPrefixOf_iff_prefix.mp hnull
          exact word_returns ['n', 'u', 'l', 'l'] hat .nullWord
            (hitem.carries rfl rfl rfl rfl (hitem.child ▸ .nil)) rfl rfl
            hitem.child hitem.valuestring
      next hnull =>
      refine .step (reads_of_at (by decide) hat) ?_
      split
      · next hfalse =>
          obtain ⟨t', rfl⟩ := List.isPrefixOf_iff_prefix.mp hfalse
          exact word_returns ['f', 'a', 'l', 's', 'e'] hat .falseWord
            (hitem.carries rfl rfl rfl rfl (hitem.child ▸ .nil)) rfl rfl
            hitem.child hitem.valuestring
      next hfalse =>
      refine .step (reads_of_at (by decide) hat) ?_
      split
      · next htrue =>
          obtain ⟨t', rfl⟩ := List.isPrefixOf_iff_prefix.mp htrue
          exact word_returns ['t', 'r', 'u', 'e'] hat .trueWord
            (.mk rfl (by rw [hitem.valuestring]; rfl) rfl hitem.valuedouble
              (hitem.child ▸ .nil)) rfl rfl hitem.child hitem.valuestring
      next htrue =>
      refine .step (atChar_of_at hat (by decide)) ?_
      split
      · next hstring =>
          obtain ⟨u, rfl⟩ := List.head?_eq_some_iff.mp (beq_iff_eq.mp hstring)
          exact (parseString_returns round item hat).mono fun r b' h =>
            h.toValue hitem
      next hstring =>
      refine .step (atNumber_of_at hat) ?_
      split
      · next hnumber =>
          exact (parseNumber_returns round hitem hat hnumber).mono fun r b' h =>
            h.atom hnumber
      next hnumber =>
      refine .step (atChar_of_at hat (by decide)) ?_
      split
      · next harray =>
          obtain ⟨u, rfl⟩ := List.head?_eq_some_iff.mp (beq_iff_eq.mp harray)
          cases n with
          | zero =>
              unfold parseArray
              refine returns_get_bind ?_
              rw [if_pos (by omega)]
              exact limit_returns rfl
          | succ n =>
              exact parseArray_returns (hinner n rfl) hitem hdepth
                (by omega) hat
      next harray =>
      refine .step (atChar_of_at hat (by decide)) ?_
      split
      · next hobject =>
          obtain ⟨u, rfl⟩ := List.head?_eq_some_iff.mp (beq_iff_eq.mp hobject)
          cases n with
          | zero =>
              unfold parseObject
              refine returns_get_bind ?_
              rw [if_pos (by omega)]
              exact limit_returns rfl
          | succ n =>
              exact parseObject_returns (hinner n rfl) hitem hdepth
                (by omega) hat
      next hobject =>
      -- No production begins like this.
      refine returns_pure ⟨rfl, .refl _, .inr fun v t' hv => ?_⟩
      rcases hv.cases with hv | ⟨m, -, hv⟩
      · cases hv with
        | nullWord => exact hnull rfl
        | falseWord => exact hfalse rfl
        | trueWord => exact htrue rfl
        | string hs =>
            obtain ⟨u, rfl⟩ := (lexicon round).string_head hs
            exact hstring rfl
        | number hx =>
            obtain ⟨c, u, rfl, hc⟩ := (lexicon round).number_head hx
            exact hnumber hc
      · obtain ⟨c, u, rfl, hc⟩ := hv.head
        rcases hc with rfl | rfl
        · exact harray rfl
        · exact hobject rfl

end Value

/-! ## The document -/

section Document

variable {round : Rat → Double} {b : ParseBuffer} {t : List Char}

theorem skipUtf8Bom_returns (hat : b.At t) :
    skipUtf8Bom.Returns b fun _ b' =>
      ∃ o, b' = { b with offset := o } ∧ b'.At (withoutBom t) := by
  have hlen := hat.length
  unfold skipUtf8Bom withoutBom
  refine returns_get_bind ?_
  split
  · next hacc =>
      have hlt : b.offset + 4 < b.length := of_decide_eq_true hacc
      refine .step (strncmp_of_drop (by decide) (by simp; omega) hat.rest) ?_
      split
      · next hbom =>
          rw [if_pos ⟨hbom, by omega⟩]
          obtain ⟨u, rfl⟩ := List.isPrefixOf_iff_prefix.mp hbom
          exact returns_modify ⟨_, rfl, hat.drop rfl rfl⟩
      · next hbom =>
          rw [if_neg fun h => hbom h.1]
          exact returns_pure ⟨_, rfl, hat⟩
  · next hacc =>
      have hge : ¬ b.offset + 4 < b.length := fun h => hacc (decide_eq_true h)
      rw [if_neg fun h => by omega]
      exact returns_pure ⟨_, rfl, hat⟩

theorem atChar_nul_of_at (hat : b.At t) :
    atChar nul b = .ok (t.isEmpty, b) := by
  unfold atChar
  rw [get_bind, if_pos (canAccess_of_at hat),
    bind_eq (bufferAtOffset_of_at hat)]
  cases t with
  | nil => rfl
  | cons c t =>
      have hne : (c == nul) = false := by
        simpa using fun hc : c = nul => hat.noNul (hc ▸ List.mem_cons_self)
      show Except.ok (c == nul, b) = _
      rw [hne]
      rfl

/-- The text is a document, with nothing after it but white space if that is
required. -/
def Accepts (round : Rat → Double) (requireNullTerminated : Bool)
    (t : List Char) (v : CJson) : Prop :=
  ∃ t', JsonDocument round t v t' ∧
    (requireNullTerminated = true → (lexicon round).skip t' = [])

theorem Accepts.unique {req : Bool} {v w : CJson} (h : Accepts round req t v)
    (h' : Accepts round req t w) : v = w := by
  obtain ⟨t', h, -⟩ := h
  obtain ⟨t'', h', -⟩ := h'
  exact (jsonValue_functional _ h h').1

/-- What becomes of a text. -/
def DocumentPost (round : Rat → Double) (requireNullTerminated : Bool)
    (b : ParseBuffer) (t : List Char) (r : Option Item)
    (b' : ParseBuffer) : Prop :=
  b'.content = b.content ∧
  match r with
  | none => b.heap.Gains b'.heap [] ∧
      (b.heap.Refused b'.heap ∨ ∀ v, ¬ Accepts round requireNullTerminated t v)
  | some i => ∃ v, Accepts round requireNullTerminated t v ∧ Carries i v ∧
      b.heap.Gains b'.heap i.blocks

/-- The item is deleted, and there was a reason. -/
theorem deleteDocument_returns {req : Bool} {s : ParseBuffer} {item : Item}
    (hcontent : s.content = b.content)
    (hgains : b.heap.Gains s.heap item.blocks)
    (hwhy : b.heap.Refused s.heap ∨ ∀ v, ¬ Accepts round req t v) :
    (do
      deleteItems [item]
      pure none : Parsing (Option Item)).Returns s
        (DocumentPost round req b t) := by
  have hblocks : b.heap.Gains s.heap (itemsBlocks [item]) := by
    rwa [itemsBlocks, itemsBlocks, List.append_nil]
  refine (deleteItems_returns hblocks).bind ?_
  rintro - s' ⟨heap, rfl, hgains', hasked⟩
  refine returns_pure ⟨hcontent, hgains', hwhy.imp_left fun hrefused => ?_⟩
  exact hrefused.mono (by rw [hasked])

theorem parseDocument_returns {req : Bool} (hat : b.At t)
    (hdepth : b.depth = 0) :
    (parseDocument round req).Returns b (DocumentPost round req b t) := by
  refine (cJSONNewItem_returns b).bind ?_
  rintro (_ | i) s ⟨heap, rfl, hnew⟩
  · exact returns_pure ⟨rfl, hnew.1, .inl hnew.2⟩
  · obtain ⟨ptr, rfl, hgains⟩ := hnew
    have hat' : ({ b with heap := heap } : ParseBuffer).At t :=
      ParseBuffer.At.drop (u := []) hat rfl rfl
    refine (skipUtf8Bom_returns hat').bind ?_
    rintro - s ⟨o, rfl, hat₁⟩
    refine (bufferSkipWhitespace_returns round hat₁).bind ?_
    rintro - s ⟨o', rfl, hat₂⟩
    refine (parseValue_returns round (Nat.le_refl _) (Nat.lt_succ_self _)
      (fresh_zero ptr) hat₂
      (hdepth.trans (Nat.sub_self _).symm)).bind ?_
    rintro (_ | i) s ⟨hcontent, hr⟩
    · obtain ⟨hgains', hwhy⟩ := hr
      refine deleteDocument_returns hcontent (hgains.trans_nil hgains') ?_
      rcases hwhy with hrefused | hno
      · exact .inl (hgains.trans_refused hrefused)
      · refine .inr ?_
        rintro v ⟨t', h, -⟩
        exact hno v t' h
    · obtain ⟨v, t', hv, hat₃, -, -, hcarries, hptr, hstring, hgains'⟩ := hr
      have hblocks : b.heap.Gains s.heap i.blocks := by
        rw [i.blocks_eq, hptr, hstring]
        simpa [stringBlock, Item.zero] using hgains.trans hgains'
      cases req with
      | false =>
          exact returns_pure
            ⟨hcontent, v, ⟨t', hv, Bool.noConfusion⟩, hcarries, hblocks⟩
      | true =>
          simp only [if_true]
          refine (bufferSkipWhitespace_returns round hat₃).bind ?_
          rintro - s' ⟨o₁, rfl, hat₄⟩
          refine .step (atChar_nul_of_at hat₄) ?_
          split
          · next hend =>
              exact returns_pure
                ⟨hcontent, v, ⟨t', hv, fun _ => List.isEmpty_iff.mp hend⟩,
                  hcarries, hblocks⟩
          · next hend =>
              refine deleteDocument_returns hcontent hblocks (.inr ?_)
              rintro w ⟨t'', hw, hblank⟩
              cases (jsonValue_functional _ hv hw).2
              exact hend (List.isEmpty_iff.mpr (hblank rfl))

/-! ## `cJSON_Parse` -/

/-- The parser comes back from every text, whatever the heap refuses. It has
read what the text says and owns the blocks of the tree; or it owns nothing, and
the text is not one of the language or there was no memory. -/
theorem cJSONParseWithOpts_spec (round : Rat → Double) (value : CString)
    (req : Bool) (heap : Heap) :
    ∃ r heap', cJSONParseWithOpts round value req heap = .ok (r, heap') ∧
      match r with
      | .ok item => ∃ v, Accepts round req value.chars v ∧ Carries item v ∧
          heap.Gains heap' item.blocks
      | .error position => position ≤ value.chars.length ∧ heap.Gains heap' [] ∧
          (heap.Refused heap' ∨ ∀ v, ¬ Accepts round req value.chars v) := by
  have hat : (ParseBuffer.start value heap).At value.chars := ⟨rfl, value.noNul⟩
  have hreturns : (parseDocument round req).Returns _ _ :=
    parseDocument_returns hat rfl
  obtain ⟨r, b, hr, hcontent, hpost⟩ := hreturns
  unfold cJSONParseWithOpts
  rw [hr]
  cases r with
  | some item => exact ⟨_, _, rfl, hpost⟩
  | none =>
      refine ⟨_, _, rfl, ?_, hpost⟩
      have hlen : b.length = value.chars.length + 1 := by
        unfold ParseBuffer.length
        rw [hcontent]
        simp [ParseBuffer.start]
      unfold ParseBuffer.errorPosition
      split
      · omega
      · split
        · omega
        · omega

/-- No text makes the parser read outside it, write outside a block, return a
block twice, loop for ever or recurse deeper than the limit. -/
theorem cJSONParseWithOpts_ne_fault (round : Rat → Double) (value : CString)
    (requireNullTerminated : Bool) (heap : Heap) (fault : JsonFault) :
    cJSONParseWithOpts round value requireNullTerminated heap ≠
      .error fault := by
  intro h
  obtain ⟨r, heap', hr, -⟩ :=
    cJSONParseWithOpts_spec round value requireNullTerminated heap
  rw [hr] at h
  cases h

/-- A failed parse leaves nothing allocated, and a tree is made of new blocks,
each in one place, that `cJSON_Delete` returns one by one. -/
theorem cJSONParse_owns_blocks (round : Rat → Double) (value : CString)
    (heap : Heap) :
    ∃ r heap', cJSONParse round value heap = .ok (r, heap') ∧
      match r with
      | .error _ => heap'.live.Perm heap.live
      | .ok item => item.blocks.Nodup ∧ (∀ p ∈ item.blocks, p ∉ heap.live) ∧
          heap'.live.Perm (item.blocks ++ heap.live) ∧
          ∃ heap'', cJSONDelete [item] heap' = some heap'' ∧
            heap''.live.Perm heap.live := by
  obtain ⟨r, heap', hr, hpost⟩ := cJSONParseWithOpts_spec round value false heap
  refine ⟨r, heap', hr, ?_⟩
  cases r with
  | error position => exact hpost.2.1.live
  | ok item =>
      obtain ⟨v, -, -, hgains⟩ := hpost
      obtain ⟨hnodup, hnew⟩ := hgains.nodup
      have hblocks : heap.Gains heap' (itemsBlocks [item] ++ []) := by
        rwa [itemsBlocks, itemsBlocks, List.append_nil, List.append_nil]
      obtain ⟨heap'', hdelete, hgains', -⟩ := cJSONDelete_gains [item] hblocks
      exact ⟨hnodup, hnew, hgains.live, heap'', hdelete, hgains'.live⟩

/-- With memory for every request, the texts that are accepted are those of the
language, and the tree carries the value that the text spells. -/
theorem cJSONParse_accepts_iff (round : Rat → Double) (value : CString)
    (heap : Heap) (hgrants : ∀ i, heap.grants i = true) (v : CJson) :
    (∃ item heap', cJSONParse round value heap = .ok (.ok item, heap') ∧
      Carries item v) ↔
      ∃ rest, JsonDocument round value.chars v rest := by
  have haccepts : ∀ w, Accepts round false value.chars w ↔
      ∃ rest, JsonDocument round value.chars w rest := by
    intro w
    constructor
    · rintro ⟨rest, h, -⟩
      exact ⟨rest, h⟩
    · rintro ⟨rest, h⟩
      exact ⟨rest, h, Bool.noConfusion⟩
  obtain ⟨r, heap', hr, hpost⟩ := cJSONParseWithOpts_spec round value false heap
  rw [← haccepts]
  constructor
  · rintro ⟨item, heap'', hitem, hcarries⟩
    cases hr.symm.trans hitem
    obtain ⟨w, haccept, hcarries', -⟩ := hpost
    rwa [hcarries.unique hcarries']
  · intro haccept
    cases r with
    | error position =>
        rcases hpost.2.2 with hrefused | hno
        · exact absurd hrefused (Heap.not_refused hgrants)
        · exact absurd haccept (hno v)
    | ok item =>
        obtain ⟨w, haccept', hcarries, -⟩ := hpost
        rw [haccept'.unique haccept] at hcarries
        exact ⟨item, heap', hr, hcarries⟩

/-- `[null, true]`. -/
theorem cJSONParse_accepts_list :
    ∃ item heap', cJSONParse Double.finite
        ⟨['[', 'n', 'u', 'l', 'l', ',', ' ', 't', 'r', 'u', 'e', ']'],
          by decide⟩
        (Heap.start fun _ => true) = .ok (.ok item, heap') ∧
      Carries item (.array [.null, .bool true]) := by
  refine (cJSONParse_accepts_iff _ _ _ (fun _ => rfl) _).mpr ⟨[], ?_⟩
  refine Json.Value.array_iff.mpr
    ⟨_, rfl, .inr (.more ⟨_, Json.Atom.toValue .nullWord, rfl⟩
    (.last ⟨_, Json.Atom.toValue .trueWord, rfl⟩))⟩

end Document

end GhostDataplane.Engine
