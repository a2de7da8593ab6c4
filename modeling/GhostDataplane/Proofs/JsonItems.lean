import GhostDataplane.Proofs.JsonParse

/-!
# Lists between brackets

`parse_array` and `parse_object` have one loop in common: make an item, attach
it to the list, fill it, and go on as long as there is a comma. What they attach
they own, and at every failure the whole list is deleted, so the account of the
blocks is that of the list. What has been read so far is kept as the equivalence
of the readings of the whole list with those of the rest, and a failure in the
middle then says that the list cannot be read from its beginning.

`ReadsItem` is what one turn does. It is stated over any relation of items and
used for the elements of an array and for the members of an object.
-/

namespace GhostDataplane.Engine

open GhostDataplane.Lib
open GhostDataplane.Lib.Checked

/-! ## Deleting -/

theorem freeString_gains {h heap : Heap} {s : Option (Nat × CString)}
    {rest : List Nat} (hg : h.Gains heap (stringBlock s ++ rest)) :
    ∃ heap', freeString s heap = some heap' ∧ h.Gains heap' rest ∧
      heap'.asked = heap.asked := by
  cases s with
  | none => exact ⟨heap, rfl, hg, rfl⟩
  | some s => exact hg.free

mutual

theorem Item.delete_gains (item : Item) {h heap : Heap} {rest : List Nat}
    (hg : h.Gains heap (item.blocks ++ rest)) :
    ∃ heap', item.delete heap = some heap' ∧ h.Gains heap' rest ∧
      heap'.asked = heap.asked := by
  obtain ⟨ptr, type, valuestring, valueint, valuedouble, string, child⟩ := item
  simp only [Item.blocks, List.append_assoc] at hg
  obtain ⟨heap₁, h₁, hg₁, ha₁⟩ := cJSONDelete_gains child hg
  obtain ⟨heap₂, h₂, hg₂, ha₂⟩ := freeString_gains hg₁
  obtain ⟨heap₃, h₃, hg₃, ha₃⟩ := freeString_gains hg₂
  obtain ⟨heap₄, h₄, hg₄, ha₄⟩ := hg₃.free
  refine ⟨heap₄, ?_, hg₄, by rw [ha₄, ha₃, ha₂, ha₁]⟩
  rw [Item.delete, h₁, Option.bind_some, h₂, Option.bind_some, h₃,
    Option.bind_some, h₄]

/-- Deleting a list returns its blocks, each once. -/
theorem cJSONDelete_gains (items : List Item) {h heap : Heap} {rest : List Nat}
    (hg : h.Gains heap (itemsBlocks items ++ rest)) :
    ∃ heap', cJSONDelete items heap = some heap' ∧ h.Gains heap' rest ∧
      heap'.asked = heap.asked := by
  cases items with
  | nil => exact ⟨heap, rfl, hg, rfl⟩
  | cons item items =>
      rw [itemsBlocks, List.append_assoc] at hg
      obtain ⟨heap₁, h₁, hg₁, ha₁⟩ := item.delete_gains hg
      obtain ⟨heap₂, h₂, hg₂, ha₂⟩ := cJSONDelete_gains items hg₁
      refine ⟨heap₂, ?_, hg₂, ha₂.trans ha₁⟩
      rw [cJSONDelete, h₁, Option.bind_some, h₂]

end

theorem deleteItems_returns {b : ParseBuffer} {h : Heap} {items : List Item}
    (hg : h.Gains b.heap (itemsBlocks items)) :
    (deleteItems items).Returns b fun _ b' => ∃ heap, b' =
      { b with heap := heap } ∧
      h.Gains heap [] ∧ heap.asked = b.heap.asked := by
  have hg' : h.Gains b.heap (itemsBlocks items ++ []) := by
    rwa [List.append_nil]
  obtain ⟨heap, hdelete, hgains, hasked⟩ := cJSONDelete_gains items hg'
  unfold deleteItems
  refine returns_get_bind ?_
  rw [hdelete]
  exact returns_modify ⟨heap, rfl, hgains, hasked⟩

theorem itemsBlocks_append (items items' : List Item) :
    itemsBlocks (items ++ items') =
      itemsBlocks items ++ itemsBlocks items' := by
  induction items with
  | nil => rfl
  | cons item items ih =>
      rw [List.cons_append, itemsBlocks, itemsBlocks, ih, List.append_assoc]

theorem CarriesAll.concat {items : List Item} {item : Item}
    {children : List (Option CString × CJson)} {child : Option CString × CJson}
    (h : CarriesAll items children) (hname : item.string.map Prod.snd = child.1)
    (hvalue : Carries item child.2) :
    CarriesAll (items ++ [item]) (children ++ [child]) := by
  induction items generalizing children with
  | nil =>
      cases h
      exact .cons hname hvalue .nil
  | cons i items ih =>
      cases h with
      | cons hn hv hrest => exact .cons hn hv (ih hrest)

/-! ## One turn -/

/-- The text behind the next character. -/
def ParseBuffer.AtNext (b : ParseBuffer) (t : List Char) : Prop :=
  ({ b with offset := b.offset + 1 } : ParseBuffer).At t

section Turn

variable {α : Type}

/-- An item has been read and attached, and `t'` is left. `view` gives its name
and its value. -/
structure ReadsItem (item : List Char → α → List Char → Prop)
    (view : α → Option CString × CJson) (b : ParseBuffer) (t : List Char)
    (items items' : List Item) (b' : ParseBuffer) (t' : List Char) : Prop where
  content : b'.content = b.content
  depth : b'.depth = b.depth
  at_ : b'.At t'
  le : t'.length ≤ t.length
  read : ∃ i a, items' = items ++ [i] ∧ item t a t' ∧
    i.string.map Prod.snd = (view a).1 ∧ Carries i (view a).2 ∧
    b.heap.Gains b'.heap i.blocks

/-- What a turn of the loop does. -/
def ItemTurnPost (item : List Char → α → List Char → Prop)
    (view : α → Option CString × CJson) (b : ParseBuffer) (t : List Char)
    (items : List Item) : Turn (List Item) ItemsEnd → ParseBuffer → Prop
  | .again items', b' =>
      ∃ t', ReadsItem item view b t items items' b' (',' :: t')
  | .done (.ok items'), b' => ∃ t', ReadsItem item view b t items items' b' t' ∧
      t'.head? ≠ some ','
  | .done (.error items'), b' => b'.content = b.content ∧
      (∃ new, items' = items ++ new ∧ b.heap.Gains b'.heap (itemsBlocks new)) ∧
      (b.heap.Refused b'.heap ∨ ∀ a t', ¬ item t a t')

/-- At the head of the loop: `items` have been read and `t` is to be. -/
structure ItemsAt (closing : Char) (item : List Char → α → List Char → Prop)
    (view : α → Option CString × CJson) (b : ParseBuffer) (t₀ : List Char)
    (items : List Item) (s : ParseBuffer) (t : List Char) : Prop where
  content : s.content = b.content
  depth : s.depth = b.depth
  next : s.AtNext t
  le : t.length ≤ t₀.length
  gains : b.heap.Gains s.heap (itemsBlocks items)
  read : ∃ as, CarriesAll items (as.map view) ∧ ∀ bs t',
    Json.Items closing item t₀ bs t' ↔
      ∃ cs, Json.Items closing item t cs t' ∧ bs = as ++ cs

/-- How the loop is left. -/
def ItemsDone (closing : Char) (item : List Char → α → List Char → Prop)
    (view : α → Option CString × CJson) (b : ParseBuffer) (t₀ : List Char) :
    ItemsEnd → ParseBuffer → Prop
  | .error items, s => s.content = b.content ∧
        b.heap.Gains s.heap (itemsBlocks items) ∧
      (b.heap.Refused s.heap ∨ ∀ bs t', ¬ Json.Items closing item t₀ bs t')
  | .ok items, s => s.content = b.content ∧ s.depth = b.depth ∧
      b.heap.Gains s.heap (itemsBlocks items) ∧
      ∃ t as, s.At t ∧ t.length ≤ t₀.length ∧ CarriesAll items (as.map view) ∧
        ∀ bs t', Json.Items closing item t₀ bs t' ↔ bs = as ∧ t = closing :: t'

variable {L : Json.Lexicon CString Double} {closing : Char}
  {item : List Char → α → List Char → Prop} {view : α → Option CString × CJson}
  {b s b' : ParseBuffer} {t₀ t t' : List Char} {items items' : List Item}

/-- The list has one item more, and its blocks are gained. -/
theorem ReadsItem.gains {h : Heap} (hg : h.Gains s.heap (itemsBlocks items))
    (hr : ReadsItem item view s t items items' b' t') :
    h.Gains b'.heap (itemsBlocks items') := by
  obtain ⟨i, a, rfl, -, -, -, hgains⟩ := hr.read
  refine (hg.trans hgains).perm ?_
  rw [itemsBlocks_append, itemsBlocks, itemsBlocks, List.append_nil]
  exact List.perm_append_comm

theorem ItemsAt.again (hitem : Json.IsItem L closing item)
    (h : ItemsAt closing item view b t₀ items s t)
    (hr : ReadsItem item view s t items items' b' (',' :: t')) :
    ItemsAt closing item view b t₀ items' b' t' where
  content := hr.content.trans h.content
  depth := hr.depth.trans h.depth
  next := ParseBuffer.At.drop (u := [',']) hr.at_ rfl rfl
  le := by
    have hle := hr.le
    have hle₀ := h.le
    simp only [List.length_cons] at hle
    omega
  gains := hr.gains h.gains
  read := by
    obtain ⟨as, hcarries, hread⟩ := h.read
    obtain ⟨i, a, rfl, ha, hname, hvalue, -⟩ := hr.read
    refine ⟨as ++ [a], ?_, fun bs t'' => ?_⟩
    · rw [List.map_append]
      exact hcarries.concat hname hvalue
    · rw [hread]
      constructor
      · rintro ⟨cs, hcs, rfl⟩
        obtain ⟨cs', hcs', rfl⟩ := (Json.Items.more_iff hitem ha).mp hcs
        exact ⟨cs', hcs', by rw [List.append_assoc]; rfl⟩
      · rintro ⟨cs, hcs, rfl⟩
        exact ⟨a :: cs, (Json.Items.more_iff hitem ha).mpr ⟨cs, hcs, rfl⟩,
          by rw [List.append_assoc]; rfl⟩

theorem ItemsAt.done (hitem : Json.IsItem L closing item)
    (h : ItemsAt closing item view b t₀ items s t)
    (hr : ReadsItem item view s t items items' b' t')
    (hcomma : t'.head? ≠ some ',') :
    ItemsDone closing item view b t₀ (.ok items') b' := by
  obtain ⟨as, hcarries, hread⟩ := h.read
  refine ⟨hr.content.trans h.content, hr.depth.trans h.depth,
    hr.gains h.gains, t', ?_⟩
  obtain ⟨i, a, rfl, ha, hname, hvalue, -⟩ := hr.read
  refine ⟨as ++ [a], hr.at_, hr.le.trans h.le, ?_, fun bs t'' => ?_⟩
  · rw [List.map_append]
    exact hcarries.concat hname hvalue
  · rw [hread]
    constructor
    · rintro ⟨cs, hcs, rfl⟩
      obtain ⟨rfl, heq⟩ := (Json.Items.last_iff hitem ha hcomma).mp hcs
      exact ⟨rfl, heq⟩
    · rintro ⟨rfl, heq⟩
      exact ⟨[a], (Json.Items.last_iff hitem ha hcomma).mpr ⟨rfl, heq⟩, rfl⟩

theorem ItemsAt.fail {new : List Item}
    (h : ItemsAt closing item view b t₀ items s t)
    (hcontent : b'.content = s.content)
    (hgains : s.heap.Gains b'.heap (itemsBlocks new))
    (hwhy : s.heap.Refused b'.heap ∨ ∀ a t', ¬ item t a t') :
    ItemsDone closing item view b t₀ (.error (items ++ new)) b' := by
  refine ⟨hcontent.trans h.content, ?_, ?_⟩
  · rw [itemsBlocks_append]
    exact (h.gains.trans hgains).perm List.perm_append_comm
  · rcases hwhy with hrefused | hno
    · exact .inl (h.gains.trans_refused hrefused)
    · refine .inr fun bs t' hbs => ?_
      obtain ⟨as, -, hread⟩ := h.read
      obtain ⟨cs, hcs, -⟩ := (hread bs t').mp hbs
      obtain ⟨a, t₁, ha⟩ := hcs.head
      exact hno a t₁ ha

theorem ParseBuffer.AtNext.length (h : s.AtNext t) :
    s.length = s.offset + t.length + 2 := by
  have hlen := ParseBuffer.At.length h
  simp only [ParseBuffer.length] at hlen ⊢
  omega

/-- The whole loop, from a turn. -/
theorem itemsLoop_returns (hitem : Json.IsItem L closing item)
    {turn : List Item → Parsing (Turn (List Item) ItemsEnd)} {depth : Nat}
    (hturn : ∀ items s t, s.AtNext t → s.depth = depth →
      (turn items).Returns s (ItemTurnPost item view s t items))
    (hdepth : b.depth = depth) (hnext : b.AtNext t₀) :
    (loop .endless turn (b.length + 1) []).Returns b
      (ItemsDone closing item view b t₀) := by
  refine returns_loop
    (fun items s => ∃ t, ItemsAt closing item view b t₀ items s t)
    (fun _ s => s.length - s.offset) ?_
    ⟨t₀, rfl, rfl, hnext, Nat.le_refl _, .refl _, [], .nil, ?_⟩
    (Nat.lt_succ_of_le (Nat.sub_le _ _))
  · rintro items s ⟨t, h⟩
    refine (hturn items s t h.next (h.depth.trans hdepth)).mono
      fun r b' hr => ?_
    rcases r with items' | (items' | items')
    · obtain ⟨t', hr⟩ := hr
      have hnext := h.again hitem hr
      refine ⟨⟨t', hnext⟩, ?_⟩
      have hlen := h.next.length
      have hlen' := hnext.next.length
      have hle := hr.le
      simp only [List.length_cons] at hle
      show b'.length - b'.offset < s.length - s.offset
      omega
    · obtain ⟨hcontent, ⟨new, rfl, hgains⟩, hwhy⟩ := hr
      exact h.fail hcontent hgains hwhy
    · obtain ⟨t', hr, hcomma⟩ := hr
      exact h.done hitem hr hcomma
  · intro bs t'
    constructor
    · intro h
      exact ⟨bs, h, rfl⟩
    · rintro ⟨cs, h, rfl⟩
      exact h

end Turn

/-! ## From one bracket to the other -/

section List

variable {α : Type} {round : Rat → Double} {closing : Char}
  {rel : List Char → α → List Char → Prop} {view : α → Option CString × CJson}
  {b : ParseBuffer} {t : List Char} {item : Item} {type : ItemType}

/-- What becomes of a list between brackets; `t` is behind the opening one. -/
def ListPost (round : Rat → Double) (closing : Char)
    (rel : List Char → α → List Char → Prop) (view : α → Option CString × CJson)
    (b : ParseBuffer) (t : List Char) (item : Item) (type : ItemType)
    (r : Option Item) (b' : ParseBuffer) : Prop :=
  b'.content = b.content ∧
  match r with
  | none => b.heap.Gains b'.heap [] ∧ (b.heap.Refused b'.heap ∨
      ∀ as t', ¬ Json.Bracketed (lexicon round) closing rel t as t')
  | some i => ∃ head as t', Json.Bracketed (lexicon round) closing rel t as t' ∧
      b'.At t' ∧ t'.length ≤ t.length ∧ b'.depth = b.depth - 1 ∧
      CarriesAll head (as.map view) ∧ b.heap.Gains b'.heap (itemsBlocks head) ∧
      i = { item with type := type, child := head }

/-- The list is deleted, and there was a reason. -/
theorem deleteItems_fails {s : ParseBuffer} {head : List Item}
    (hcontent : s.content = b.content)
    (hgains : b.heap.Gains s.heap (itemsBlocks head))
    (hwhy : b.heap.Refused s.heap ∨
      ∀ as t', ¬ Json.Bracketed (lexicon round) closing rel t as t') :
    (do
      deleteItems head
      pure none : Parsing (Option Item)).Returns s
      (ListPost round closing rel view b t item type) := by
  refine (deleteItems_returns hgains).bind ?_
  rintro - s' ⟨heap, rfl, hgains', hasked⟩
  refine returns_pure ⟨hcontent, hgains', hwhy.imp_left fun hrefused => ?_⟩
  exact hrefused.mono (by rw [hasked])

theorem parseItems_returns (hrel : Json.IsItem (lexicon round) closing rel)
    (hclosing : closing ≠ nul)
    {turn : List Item → Parsing (Turn (List Item) ItemsEnd)}
    (hturn : ∀ items s t, s.AtNext t → s.depth = b.depth →
      (turn items).Returns s (ItemTurnPost rel view s t items))
    (hnext : b.AtNext t) :
    (parseItems closing type turn item).Returns b
      (ListPost round closing rel view b t item type) := by
  unfold parseItems
  refine returns_modify_bind ?_
  refine (bufferSkipWhitespace_returns round hnext).bind ?_
  rintro - s ⟨o, rfl, hat⟩
  refine .step (atChar_of_at hat hclosing) ?_
  have hskip := (lexicon round).length_skip_le t
  split
  · next hempty =>
      obtain ⟨t', ht'⟩ := List.head?_eq_some_iff.mp (beq_iff_eq.mp hempty)
      rw [ht'] at hat hskip
      refine returns_modify_bind (returns_modify_bind (returns_pure
        ⟨rfl, [], [], t', .inl ⟨rfl, ht'⟩, ?_, ?_, rfl, .nil, .refl _, rfl⟩))
      · exact ParseBuffer.At.drop (u := [closing]) hat rfl rfl
      · exact Nat.le_of_succ_le hskip
  · next hempty =>
      have hne : ((lexicon round).skip t).head? ≠ some closing := fun h =>
        hempty (beq_iff_eq.mpr h)
      have hiff : ∀ as t', Json.Bracketed (lexicon round) closing rel t as t' ↔
          Json.Items closing rel ((lexicon round).skip t) as t' := fun as t' =>
        Json.Bracketed.iff_items hrel hne
      have hlen := hnext.length
      have hlen' := hat.length
      simp only [ParseBuffer.length] at hlen hlen'
      refine returns_get_bind ?_
      rw [if_pos (canAccess_of_at hat)]
      refine returns_modify_bind ?_
      have hnext' :
          ({ b with offset := o - 1 } : ParseBuffer).AtNext
            ((lexicon round).skip t) :=
        ParseBuffer.At.drop (u := []) hat rfl (by simp; omega)
      refine (itemsLoop_returns (b := { b with offset := o - 1 }) hrel hturn rfl
        hnext').bind ?_
      rintro (head | head) s hdone
      · obtain ⟨hcontent, hgains, hwhy⟩ := hdone
        refine deleteItems_fails hcontent hgains
          (hwhy.imp_right fun hno as t' h => ?_)
        exact hno as t' ((hiff as t').mp h)
      · obtain ⟨hcontent, hdepth, hgains, t₁, as, hat₁, hle, hcarries, hread⟩ :=
          hdone
        refine .step (atChar_of_at hat₁ hclosing) ?_
        split
        · next hclosed =>
            obtain ⟨t', rfl⟩ :=
              List.head?_eq_some_iff.mp (beq_iff_eq.mp hclosed)
            refine returns_modify_bind (returns_modify_bind (returns_pure
              ⟨hcontent, head, as, t',
                (hiff as t').mpr ((hread as t').mpr ⟨rfl, rfl⟩), ?_, ?_,
                ?_, hcarries, hgains, rfl⟩))
            · exact ParseBuffer.At.drop (u := [closing]) hat₁ rfl rfl
            · simp only [List.length_cons] at hle
              omega
            · show s.depth - 1 = b.depth - 1
              rw [hdepth]
        · next hclosed =>
            refine deleteItems_fails hcontent hgains (.inr fun bs t' h => ?_)
            obtain ⟨-, rfl⟩ := (hread bs t').mp ((hiff bs t').mp h)
            exact hclosed (beq_iff_eq.mpr rfl)

end List

/-! ## Elements and members -/

theorem Item.blocks_eq (i : Item) : i.blocks =
    itemsBlocks i.child ++ stringBlock i.valuestring ++
      stringBlock i.string ++ [i.ptr] := by
  cases i
  rfl

theorem fresh_zero (ptr : Nat) : Fresh (Item.zero ptr) := ⟨rfl, rfl, rfl, rfl⟩

section Values

variable {round : Rat → Double} {n depth : Nat} {b : ParseBuffer}
  {t : List Char} {items : List Item}

/-- A new item, unless the request is refused. -/
theorem cJSONNewItem_returns (b : ParseBuffer) :
    cJSONNewItem.Returns b fun r b' => ∃ heap, b' = { b with heap := heap } ∧
      match r with
      | none => b.heap.Gains heap [] ∧ b.heap.Refused heap
      | some i => ∃ ptr, i = Item.zero ptr ∧ b.heap.Gains heap [ptr] := by
  refine .step (allocate_eq b) (returns_pure ⟨_, rfl, ?_⟩)
  rcases halloc : b.heap.allocate with ⟨_ | ptr, heap⟩
  · exact Heap.allocate_none halloc
  · exact ⟨ptr, rfl, Heap.allocate_some halloc⟩

/-- The parser of a value, for values nested no deeper than `n`. -/
def ReadsValues (round : Rat → Double) (n depth : Nat)
    (value : Item → Parsing (Option Item)) : Prop :=
  ∀ ⦃item b t⦄, Fresh item → b.At t → b.depth = depth →
    (value item).Returns b (ValuePost (JsonValue round n) b t item)

variable {value : Item → Parsing (Option Item)}

/-- The end of a turn, after the value: white space, and a comma or not. -/
theorem endTurn_returns {α : Type} {rel : List Char → α → List Char → Prop}
    {view : α → Option CString × CJson} {s : ParseBuffer} {i : Item}
    {t₁ : List Char} {a : α} (hcontent : s.content = b.content)
    (hdepth : s.depth = b.depth) (hat : s.At t₁) (hle : t₁.length ≤ t.length)
    (hrel : rel t a ((lexicon round).skip t₁))
    (hname : i.string.map Prod.snd = (view a).1) (hvalue : Carries i (view a).2)
    (hgains : b.heap.Gains s.heap i.blocks) :
    (do
      bufferSkipWhitespace
      let comma ← atChar ','
      if comma then pure (.again (items ++ [i]))
      else pure (.done (.ok (items ++ [i]))) :
        Parsing (Turn (List Item) ItemsEnd)).Returns s
          (ItemTurnPost rel view b t items) := by
  refine (bufferSkipWhitespace_returns round hat).bind ?_
  rintro - s ⟨o, rfl, hat'⟩
  have hskip := (lexicon round).length_skip_le t₁
  refine .step (atChar_of_at hat' (by decide)) ?_
  have hread :
      ReadsItem rel view b t items (items ++ [i]) { s with offset := o }
      ((lexicon round).skip t₁) :=
    ⟨hcontent, hdepth, hat', hskip.trans hle, i, a, rfl, hrel, hname,
      hvalue, hgains⟩
  split
  · next hcomma =>
      obtain ⟨t', ht'⟩ := List.head?_eq_some_iff.mp (beq_iff_eq.mp hcomma)
      rw [ht'] at hread
      exact returns_pure ⟨t', hread⟩
  · next hcomma =>
      exact returns_pure ⟨_, hread, fun h => hcomma (beq_iff_eq.mpr h)⟩

theorem arrayTurn_returns (hvalue : ReadsValues round n depth value)
    (hnext : b.AtNext t) (hdepth : b.depth = depth) :
    (arrayTurn value items).Returns b
      (ItemTurnPost (Json.Element (lexicon round) (JsonValue round n))
        (fun v => (none, v)) b t items) := by
  refine (cJSONNewItem_returns b).bind ?_
  rintro (_ | i) s ⟨heap, rfl, hnew⟩
  · exact returns_pure
      ⟨rfl, ⟨[], (List.append_nil _).symm, hnew.1⟩, .inl hnew.2⟩
  · obtain ⟨ptr, rfl, hgains⟩ := hnew
    have hat' :
        ({ b with offset := b.offset + 1, heap := heap } : ParseBuffer).At t :=
      ParseBuffer.At.drop (u := []) hnext rfl rfl
    refine returns_modify_bind ?_
    refine (bufferSkipWhitespace_returns round hat').bind ?_
    rintro - s ⟨o, rfl, hat⟩
    have hskip := (lexicon round).length_skip_le t
    refine (hvalue (fresh_zero ptr) hat hdepth).bind ?_
    rintro (_ | i) s ⟨hcontent, hr⟩
    · obtain ⟨hgains', hwhy⟩ := hr
      refine returns_pure
        ⟨hcontent, ⟨[Item.zero ptr], rfl, hgains.trans_nil hgains'⟩, ?_⟩
      rcases hwhy with hrefused | hno
      · exact .inl (hgains.trans_refused hrefused)
      · refine .inr ?_
        rintro v t' ⟨t₁, h, -⟩
        exact hno v t₁ h
    · obtain ⟨v, t₁, hv, hat₁, hle, hdepth₁, hcarries, hptr, hstring,
          hgains'⟩ := hr
      refine endTurn_returns hcontent hdepth₁ hat₁ (hle.trans hskip)
        ⟨t₁, hv, rfl⟩ ?_ hcarries ?_
      · rw [hstring]
        rfl
      · rw [i.blocks_eq, hptr, hstring]
        simpa [stringBlock, Item.zero] using hgains.trans hgains'

/-- The item of a member when its name has been parsed. -/
def Item.named (ptr : Nat) (name : Nat × CString) : Item :=
  { Item.zero ptr with type := .string, string := some name }

theorem fresh_named (ptr : Nat) (name : Nat × CString) :
    Fresh (Item.named ptr name) :=
  ⟨rfl, rfl, rfl, rfl⟩

theorem objectTurn_returns (hvalue : ReadsValues round n depth value)
    (hnext : b.AtNext t) (hdepth : b.depth = depth) :
    (objectTurn value items).Returns b
      (ItemTurnPost (Json.Member (lexicon round) (JsonValue round n))
        (fun m => (some m.1, m.2)) b t items) := by
  refine (cJSONNewItem_returns b).bind ?_
  rintro (_ | i) s ⟨heap, rfl, hnew⟩
  · exact returns_pure
      ⟨rfl, ⟨[], (List.append_nil _).symm, hnew.1⟩, .inl hnew.2⟩
  · obtain ⟨ptr, rfl, hgains⟩ := hnew
    have hat' :
        ({ b with offset := b.offset + 1, heap := heap } : ParseBuffer).At t :=
      ParseBuffer.At.drop (u := []) hnext rfl rfl
    refine returns_modify_bind ?_
    refine (bufferSkipWhitespace_returns round hat').bind ?_
    rintro - s ⟨o, rfl, hat⟩
    have hskip := (lexicon round).length_skip_le t
    refine (parseString_returns round (Item.zero ptr) hat).bind ?_
    rintro (_ | i) s ⟨hcontent, hdepth₁, hr⟩
    · obtain ⟨hgains', hwhy⟩ := hr
      refine returns_pure
        ⟨hcontent, ⟨[Item.zero ptr], rfl, hgains.trans_nil hgains'⟩, ?_⟩
      rcases hwhy with hrefused | hno
      · exact .inl (hgains.trans_refused hrefused)
      · refine .inr ?_
        rintro ⟨k, v⟩ t' ⟨t₁, t₂, hk, -⟩
        exact hno k t₁ hk
    · obtain ⟨ptr', k, t₁, hk, hat₁, hle₁, hgains₁, rfl⟩ := hr
      have hnamed := hgains.trans hgains₁
      refine (bufferSkipWhitespace_returns round hat₁).bind ?_
      rintro - s₁ ⟨o₁, rfl, hat₂⟩
      have hskip₁ := (lexicon round).length_skip_le t₁
      refine .step (atChar_of_at hat₂ (by decide)) ?_
      split
      · next hcolon =>
          obtain ⟨t₂, ht₂⟩ := List.head?_eq_some_iff.mp (beq_iff_eq.mp hcolon)
          rw [ht₂] at hat₂ hskip₁
          have hat₃ : ({ s with offset := o₁ + 1 } : ParseBuffer).At t₂ :=
            ParseBuffer.At.drop (u := [':']) hat₂ rfl rfl
          refine returns_modify_bind ?_
          refine (bufferSkipWhitespace_returns round hat₃).bind ?_
          rintro - s₂ ⟨o₂, rfl, hat₄⟩
          have hskip₂ := (lexicon round).length_skip_le t₂
          simp only [List.length_cons] at hskip₁
          refine (hvalue (fresh_named ptr (ptr', k)) hat₄
            (hdepth₁.trans hdepth)).bind ?_
          rintro (_ | i) s₃ ⟨hcontent₃, hr⟩
          · obtain ⟨hgains₃, hwhy⟩ := hr
            refine returns_pure ⟨hcontent₃.trans hcontent,
              ⟨[Item.named ptr (ptr', k)], rfl, hnamed.trans_nil hgains₃⟩, ?_⟩
            rcases hwhy with hrefused | hno
            · exact .inl (hnamed.trans_refused hrefused)
            · refine .inr ?_
              rintro ⟨k', v⟩ t' ⟨t₁', t₂', hk', hcolon', t₃, hv, -⟩
              obtain ⟨rfl, rfl⟩ := (lexicon_isFunctional round).string hk hk'
              cases ht₂.symm.trans hcolon'
              exact hno v t₃ hv
          · obtain ⟨v, t₃, hv, hat₅, hle₃, hdepth₃, hcarries, hptr, hstring,
                hgains₃⟩ := hr
            refine endTurn_returns (a := (k, v)) (hcontent₃.trans hcontent)
              (hdepth₃.trans hdepth₁) hat₅ (by omega)
              ⟨t₁, t₂, hk, ht₂, t₃, hv, rfl⟩ ?_ hcarries ?_
            · rw [hstring]
              rfl
            · rw [i.blocks_eq, hptr, hstring]
              simpa [stringBlock, Item.named, Item.zero]
                using hnamed.trans hgains₃
      · next hcolon =>
          refine returns_pure
            ⟨hcontent, ⟨[Item.named ptr (ptr', k)], rfl, hnamed⟩, .inr ?_⟩
          rintro ⟨k', v⟩ t' ⟨t₁', t₂', hk', hcolon', -⟩
          obtain ⟨rfl, rfl⟩ := (lexicon_isFunctional round).string hk hk'
          exact hcolon (beq_iff_eq.mpr (by rw [hcolon']; rfl))

end Values

end GhostDataplane.Engine
