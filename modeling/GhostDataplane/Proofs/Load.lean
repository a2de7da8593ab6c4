import GhostDataplane.Engine.Load
import GhostDataplane.Proofs.ConfigFile
import GhostDataplane.Proofs.JsonStandard
import GhostDataplane.Proofs.RuleFile

/-!
# What `setup_rules` makes of a file

The rules were read from values so far; here they are read from the items that
the parser leaves in memory, which have the values in their fields. The two
readings agree item by item, because a lookup by name goes through the names in
the same order in both, and the fields that are read are those that `Carries`
speaks of.

Everything else is composition: the text of the file is what is parsed, the
parser takes it for the value that it spells, and the rules are those of the
value. What is left allocated is the array with its rules, and the tree.

The parser rounds the numbers of the file to doubles. The text is read exactly
here, so that a rule can be compared with what is written. `CJson.rounded` leads
from the one reading to the other, and for the numbers of a rule it changes
nothing if `strtod` returns the numbers up to 255 as they are.
-/

namespace GhostDataplane.Engine

open GhostDataplane.Lib

/-! ## Items and values -/

section Items

variable {item : Item} {v : CJson} {name : String}

/-- The first item with the name carries the first value with the name. -/
theorem CarriesAll.find {items : List Item}
    {children : List (Option CString × CJson)} (h : CarriesAll items children)
    (name : String) :
    Option.Rel Carries
      (items.find? fun item =>
        caseInsensitiveEq name (item.string.map Prod.snd))
      ((children.find? fun child => caseInsensitiveEq name child.1).map
        Prod.snd) := by
  induction children generalizing items with
  | nil =>
      cases h
      exact .none
  | cons child children ih =>
      cases h with
      | cons hname hvalue hrest =>
          rw [List.find?_cons, List.find?_cons, hname]
          split
          · exact .some hvalue
          · exact ih hrest

theorem Carries.getObjectItem (h : Carries item v) (name : String) :
    Option.Rel Carries (getObjectItem item name)
      (cJSONGetObjectItem v name) := by
  cases h with
  | mk _ _ _ _ hchild => exact hchild.find name

theorem Carries.valuestring (h : Carries item v) :
    item.valuestring.map Prod.snd = v.valueString := by
  cases h with
  | mk _ hstring _ _ _ => exact hstring

theorem Carries.valueint (h : Carries item v) : item.valueint = v.valueInt := by
  cases h with
  | mk _ _ hint _ _ => exact hint

end Items

/-! ## The loop -/

section Loop

variable (env : RulesEnv) (i array : Nat) {item : Item} {items : List Item}
  {v : CJson} {vs : List CJson} {heap : Heap}

theorem CarriesAll.forall₂ {children : List (Option CString × CJson)}
    (h : CarriesAll items children) :
    List.Forall₂ Carries items (children.map Prod.snd) := by
  induction children generalizing items with
  | nil =>
      cases h
      exact .nil
  | cons child children ih =>
      cases h with
      | cons _ hvalue hrest => exact .cons hvalue (ih hrest)

/-- The item is read as its value is. -/
theorem loadRule_spec (hc : Carries item v) (hall : ∀ j, heap.grants j = true) :
    match readRule env i v with
    | .error e => loadRule env (some array) i item heap = .error (.rteExit e)
    | .ok rule => ∃ ptr heap', loadRule env (some array) i item heap =
        .ok ((ptr, rule), heap') ∧ heap.Gains heap' [ptr] := by
  have hip := hc.getObjectItem "ip"
  have hdepth := hc.getObjectItem "depth"
  have haction := hc.getObjectItem "action"
  unfold readRule loadRule
  generalize getObjectItem item "ip" = ip,
    cJSONGetObjectItem v "ip" = ipValue at hip ⊢
  generalize getObjectItem item "depth" = depth,
    cJSONGetObjectItem v "depth" = depthValue at hdepth ⊢
  generalize getObjectItem item "action" = action,
    cJSONGetObjectItem v "action" = actionValue at haction ⊢
  cases hip with
  | none => rfl
  | some hip =>
      cases hdepth with
      | none => rfl
      | some hdepth =>
          cases haction with
          | none => rfl
          | some haction =>
              obtain ⟨ptr, heap', halloc, hgains⟩ :=
                Heap.allocate_of_grants hall
              refine ⟨ptr, heap', ?_, hgains⟩
              simp only [halloc, hip.valuestring, hdepth.valueint,
                haction.valueint]
              rfl

theorem loadRules_spec (hc : List.Forall₂ Carries items vs)
    (hall : ∀ j, heap.grants j = true) :
    match readRules env i vs with
    | .error e => loadRules env (some array) i items heap = .error (.rteExit e)
    | .ok rules => ∃ entries heap', loadRules env (some array) i items heap =
        .ok (entries, heap') ∧ entries.map Prod.snd = rules ∧
        heap.Gains heap' (entries.map Prod.fst) := by
  induction hc generalizing i heap with
  | nil => exact ⟨[], heap, rfl, rfl, .refl heap⟩
  | @cons item v items vs hcarries _ ih =>
      have hrule := loadRule_spec env i array hcarries hall
      rw [readRules]
      unfold loadRules
      cases hread : readRule env i v with
      | error e =>
          rw [hread] at hrule
          simp only [hrule]
      | ok rule =>
          rw [hread] at hrule
          obtain ⟨ptr, heap₁, hload, hgains⟩ := hrule
          have hall₁ : ∀ j, heap₁.grants j = true := by rwa [hgains.grants]
          have hrest := ih (i + 1) hall₁
          simp only [hload]
          cases hreads : readRules env (i + 1) vs with
          | error e =>
              rw [hreads] at hrest
              simp only [hrest]
          | ok rules =>
              rw [hreads] at hrest
              obtain ⟨entries, heap₂, hloads, rfl, hgains'⟩ := hrest
              refine ⟨(ptr, rule) :: entries, heap₂,
                by simp only [hloads], rfl, ?_⟩
              exact (hgains.trans hgains').perm (List.perm_append_singleton _ _)

end Loop

/-! ## The file -/

/-- A file that `fw_config_parse_file` reads as it is: it can be opened and
there is memory for it, its lines fit the buffer, and it does not have one
character. -/
structure Readable (env : FileEnv) (name file : CString) : Prop where
  name_ne : name.chars ≠ []
  opens : env.fopen name = some file.chars
  memory : env.malloc (jsonStrSize file.chars) = true
  length_ne : file.chars.length ≠ 1
  length_lt : (file.chars.length : Int) < intMax
  lines : file.chars.length ≤ tempBufSize ∨
    ∀ line ∈ textLines file.chars, line.length < tempBufSize

section File

variable {fileEnv : FileEnv} {env : RulesEnv} {round : Rat → Double}
  {name file : CString} {v : CJson} {heap : Heap}

theorem Readable.parsed (h : Readable fileEnv name file) :
    fwConfigParseFile fileEnv tempBufSize (file.chars.length + 1) (some name) =
      some (.parse (file.chars ++ [nul])) := by
  obtain ⟨s, hw, hcopied, -⟩ := whileLoop_readChunk h.length_ne file.noNul
  have hlength := fileLength_of_lt h.length_lt
  rw [fwConfigParseFile_of_open h.name_ne h.opens h.memory, hlength, hw,
    Option.map_some, finishRead, if_neg, hcopied, hlength,
    jsonStr_of_length rfl]
  rw [← hlength] at hw
  have hshort := h.lines
  rw [← Int.ofNat_le, ← hlength] at hshort
  obtain ⟨hstored, hsize⟩ := buffers_respected hshort
    (copies_length_le_of_lt h.length_lt) (whileLoop_atHead hw)
  omega

/-- The tree of a file that is accepted. -/
theorem fwConfigParseTree_accepts (h : Readable fileEnv name file)
    (hall : ∀ j, heap.grants j = true) (hv : Accepts round false file.chars v) :
    ∃ item heap', fwConfigParseTree fileEnv round (file.chars.length + 1)
      (some name) heap =
        .ok (some item, heap') ∧ Carries item v ∧
        heap.Gains heap' item.blocks := by
  obtain ⟨r, heap', hr, hpost⟩ := cJSONParseWithOpts_spec round file false heap
  unfold fwConfigParseTree cJSONParse
  rw [h.parsed]
  simp only [CString.ofBuffer_append, hr]
  cases r with
  | error position =>
      rcases hpost.2.2 with hrefused | hno
      · exact absurd hrefused (Heap.not_refused hall)
      · exact absurd hv (hno v)
  | ok item =>
      obtain ⟨w, hw, hcarries, hgains⟩ := hpost
      rw [hw.unique hv] at hcarries
      exact ⟨item, heap', rfl, hcarries, hgains⟩

/-- The rules are those of the value, and all that was allocated stays so. -/
theorem setupRulesFile_of_accepts {rules : List FwRule}
    (h : Readable fileEnv name file) (hall : ∀ j, heap.grants j = true)
    (hv : Accepts round false file.chars v)
    (hrules : rulesOf env (some v) = .ok rules) :
    ∃ array tree heap',
      setupRulesFile fileEnv env round (file.chars.length + 1) (some name)
        heap = .ok ((some array, v.children.length), heap') ∧
      array.entries.map Prod.snd = rules ∧ Carries tree v ∧
      heap.Gains heap'
        (array.entries.map Prod.fst ++ array.ptr :: tree.blocks) := by
  obtain ⟨tree, heap₁, htree, hcarries, hgains⟩ :=
    fwConfigParseTree_accepts h hall hv
  have hall₁ : ∀ j, heap₁.grants j = true := by rwa [hgains.grants]
  obtain ⟨ptr, heap₂, halloc, hgains₁⟩ := Heap.allocate_of_grants hall₁
  have hchild : List.Forall₂ Carries tree.child v.children := by
    cases hcarries with
    | mk _ _ _ _ hchild => exact hchild.forall₂
  have hall₂ : ∀ j, heap₂.grants j = true := by rwa [hgains₁.grants]
  have hload := loadRules_spec env 0 ptr hchild hall₂
  rw [show readRules env 0 v.children = .ok rules from hrules] at hload
  obtain ⟨entries, heap₃, hentries, hmap, hgains₂⟩ := hload
  refine ⟨⟨ptr, entries⟩, tree, heap₃, ?_, hmap, hcarries, ?_⟩
  · unfold setupRulesFile
    simp only [htree, halloc, hentries, hchild.length_eq]
    rfl
  · exact (hgains.trans hgains₁).trans hgains₂

end File

/-! ## Rounding -/

/-- A number as `strtod` rounds it. -/
def Double.rounded (round : Rat → Double) : Double → Double
  | .finite q => round q
  | .infinity negative => .infinity negative

mutual

/-- A value with its numbers rounded. -/
def CJson.rounded (round : Rat → Double) : CJson → CJson
  | .null => .null
  | .bool b => .bool b
  | .string s => .string s
  | .number x => .number (x.rounded round)
  | .array items => .array (roundedItems round items)
  | .object items => .object (roundedMembers round items)

def roundedItems (round : Rat → Double) : List CJson → List CJson
  | [] => []
  | item :: items => item.rounded round :: roundedItems round items

def roundedMembers (round : Rat → Double) :
    List (CString × CJson) → List (CString × CJson)
  | [] => []
  | (name, item) :: items =>
      (name, item.rounded round) :: roundedMembers round items

end

section Rounding

variable {round : Rat → Double} {text : List Char} {v child : CJson}
  {rule : FwRule} {n : Nat}

theorem roundedItems_eq (round : Rat → Double) (items : List CJson) :
    roundedItems round items = items.map (CJson.rounded round) := by
  induction items with
  | nil => rw [roundedItems, List.map_nil]
  | cons item items ih => rw [roundedItems, List.map_cons, ih]

theorem roundedMembers_eq (round : Rat → Double)
    (items : List (CString × CJson)) :
    roundedMembers round items =
      items.map fun item => (item.1, item.2.rounded round) := by
  induction items with
  | nil => rw [roundedMembers, List.map_nil]
  | cons item items ih => rw [roundedMembers, List.map_cons, ih]

/-- A value is there for the rounded text exactly if one is for the text. -/
theorem standardValues_maps (round : Rat → Double) :
    (standardValues Double.finite).Maps (standardValues round)
      (Option.map (CJson.rounded round)) where
  null := by simp [standardValues, Json.Values.partly, values, CJson.rounded]
  bool b := by simp [standardValues, Json.Values.partly, values, CJson.rounded]
  string cs := by
    cases h : standardString cs with
    | none => simp [standardValues, Json.Values.partly, h]
    | some s =>
        simp [standardValues, Json.Values.partly, values, h, CJson.rounded]
  number d := by
    simp [standardValues, Json.Values.partly, values, CJson.rounded,
      Double.rounded]
  array vs := by
    simp only [standardValues, Json.Values.partly, values, Json.allSome_map,
      Option.map_map]
    refine Option.map_congr fun items _ => ?_
    simp [CJson.rounded, roundedItems_eq]
  object ms := by
    have hboth : ∀ m : List (Option Char) × Option CJson,
        Json.both (standardString m.1, m.2.map (CJson.rounded round)) =
          (Json.both (standardString m.1, m.2)).map
            fun item => (item.1, item.2.rounded round) := by
      rintro ⟨cs, _ | item⟩
      · cases standardString cs with
        | none => rfl
        | some s => rfl
      · cases standardString cs with
        | none => rfl
        | some s => rfl
    have hmap : (ms.map fun m =>
          Json.both (standardString m.1, m.2.map (CJson.rounded round))) =
        (ms.map fun m => Json.both (standardString m.1, m.2)).map
          (Option.map fun item => (item.1, item.2.rounded round)) := by
      rw [List.map_map]
      exact List.map_congr_left fun m _ => hboth m
    simp only [standardValues, Json.Values.partly, values, List.map_map,
      Function.comp_def]
    rw [hmap, Json.allSome_map, Option.map_map, Option.map_map]
    refine Option.map_congr fun items _ => ?_
    simp [CJson.rounded, roundedMembers_eq]

theorem StandardDocument.rounded
    (h : StandardDocument Double.finite text (some v)) (round : Rat → Double) :
    StandardDocument round text (some (v.rounded round)) := by
  obtain ⟨t', hv, hend⟩ := h
  have hv' := hv.map (standardValues_maps round)
  exact ⟨t', hv', hend⟩

theorem child_rounded (round : Rat → Double) (v : CJson) :
    (v.rounded round).child =
      v.child.map fun item => (item.1, item.2.rounded round) := by
  cases v with
  | array items =>
      simp [CJson.rounded, CJson.child, roundedItems_eq, Function.comp_def]
  | object items =>
      simp [CJson.rounded, CJson.child, roundedMembers_eq, Function.comp_def]
  | _ => simp [CJson.rounded, CJson.child]

theorem children_rounded (round : Rat → Double) (v : CJson) :
    (v.rounded round).children = v.children.map (CJson.rounded round) := by
  simp [CJson.children, child_rounded, Function.comp_def]

theorem cJSONGetObjectItem_rounded (round : Rat → Double) (v : CJson)
    (name : String) :
    cJSONGetObjectItem (v.rounded round) name =
      (cJSONGetObjectItem v name).map (CJson.rounded round) := by
  simp [cJSONGetObjectItem, child_rounded, List.find?_map, Function.comp_def]

/-- A small number is not changed. -/
theorem isNumber_rounded (hround : ∀ n : Nat, n ≤ 255 → round n = .finite n)
    (hn : n ≤ 255) {name : String}
    (h : IsNumber (cJSONGetObjectItem child name) n) :
    IsNumber (cJSONGetObjectItem (child.rounded round) name) n := by
  rw [IsNumber] at h
  rw [IsNumber, cJSONGetObjectItem_rounded, h, Option.map_some, CJson.rounded,
    Double.rounded, hround n hn]

theorem string_rounded {s : CString} {name : String}
    (h : cJSONGetObjectItem child name = some (.string s)) :
    cJSONGetObjectItem (child.rounded round) name = some (.string s) := by
  rw [cJSONGetObjectItem_rounded, h, Option.map_some, CJson.rounded]

theorem WellFormed.rounded
    (hround : ∀ n : Nat, n ≤ 255 → round n = .finite n)
    (h : WellFormed child) : WellFormed (child.rounded round) := by
  obtain ⟨s, a, b, c, d, hip, hquad⟩ := h.ip
  obtain ⟨n, hn, hdepth⟩ := h.depth
  obtain ⟨m, hm, haction⟩ := h.action
  exact ⟨⟨s, a, b, c, d, string_rounded hip, hquad⟩,
    ⟨n, hn, isNumber_rounded hround hn hdepth⟩,
    ⟨m, hm, isNumber_rounded hround hm haction⟩⟩

/-- A rule that says what the rounded child says. -/
theorem WellFormed.faithful_of_rounded
    (hround : ∀ n : Nat, n ≤ 255 → round n = .finite n)
    (h : WellFormed child) (hf : Faithful (child.rounded round) rule) :
    Faithful child rule := by
  obtain ⟨s, _, _, _, _, hip, -⟩ := h.ip
  obtain ⟨n, hn, hdepth⟩ := h.depth
  obtain ⟨m, hm, haction⟩ := h.action
  obtain ⟨s', a, b, c, d, hip', hquad, hsrc⟩ := hf.ip
  rw [string_rounded hip] at hip'
  cases hip'
  refine ⟨⟨s, a, b, c, d, hip, hquad, hsrc⟩, ?_, ?_⟩
  · rw [← (isNumber_rounded hround hn hdepth).unique hf.depth]
    exact hdepth
  · rw [← (isNumber_rounded hround hm haction).unique hf.action]
    exact haction

/-- What is well formed has the items that are looked for. -/
theorem WellFormed.hasFields (h : WellFormed child) : HasFields child := by
  obtain ⟨s, _, _, _, _, hip, -⟩ := h.ip
  obtain ⟨n, -, hdepth⟩ := h.depth
  obtain ⟨m, -, haction⟩ := h.action
  simp [HasFields, hip, show cJSONGetObjectItem child "depth" = _ from hdepth,
    show cJSONGetObjectItem child "action" = _ from haction]

end Rounding

/-- For a readable file in standard JSON whose rules each have a dotted quad and
two numbers up to 255, `setup_rules` returns one rule for each of them, in their
order, with what is written in the file. `strtod` has to return those numbers as
they are. The array and the rules are new memory, and so is the tree that the
file was parsed to, which nothing refers to any more and which is never
freed. -/
theorem setupRulesFile_standard (fileEnv : FileEnv) (env : RulesEnv)
    (round : Rat → Double) (name file : CString) (text : List Char) (v : CJson)
    (heap : Heap) (h : Readable fileEnv name file)
    (htext : file.chars = utf8Text text)
    (hround : ∀ n : Nat, n ≤ 255 → round n = .finite n)
    (hdoc : StandardDocument Double.finite text (some v))
    (hwell : ∀ child ∈ v.children, WellFormed child)
    (hall : ∀ j, heap.grants j = true) :
    ∃ limit array tree heap',
      setupRulesFile fileEnv env round limit (some name) heap =
        .ok ((some array, v.children.length), heap') ∧
      List.Forall₂ Faithful v.children (array.entries.map Prod.snd) ∧
      Carries tree (v.rounded round) ∧
      heap.Gains heap'
        (array.entries.map Prod.fst ++ array.ptr :: tree.blocks) := by
  have hwell' : ∀ child ∈ (v.rounded round).children, WellFormed child := by
    rw [children_rounded]
    exact List.forall_mem_map.mpr fun child hc =>
      (hwell child hc).rounded hround
  have haccepts : Accepts round false file.chars (v.rounded round) :=
    htext ▸ ((hdoc.rounded round).accepts_iff false _).mpr rfl
  obtain ⟨rules, hrules⟩ := (readRules_succeeds_iff env 0).mpr fun child hc =>
    (hwell' child hc).hasFields
  obtain ⟨array, tree, heap', hsetup, rfl, hcarries, hgains⟩ :=
    setupRulesFile_of_accepts h hall haccepts hrules
  have hfaithful := (forall₂_faithful_iff hrules).mpr hwell'
  rw [children_rounded, List.forall₂_map_left_iff] at hfaithful
  have hlength : (v.rounded round).children.length = v.children.length := by
    rw [children_rounded, List.length_map]
  refine ⟨_, array, tree, heap', hlength ▸ hsetup, ?_, hcarries, hgains⟩
  have hboth := (List.forall₂_and_left _ _).mpr ⟨hwell, hfaithful⟩
  exact hboth.imp fun child rule hc => hc.1.faithful_of_rounded hround hc.2

/-! ## A file with one rule -/

/-- `{"rule1":{"ip":"10.0.0.0","depth":8,"action":1}}`. -/
def tenText : List Char :=
  "\x7b\"rule1\":\x7b\"ip\":\"10.0.0.0\",\"depth\":8,\"action\":1\x7d\x7d".toList

theorem spells_of_plain {cs : List Char}
    (h : (cs.all fun c => 0x20 ≤ c.toNat ∧ c ≠ '"' ∧ c ≠ '\\') = true) :
    Json.Standard.Spells cs (cs.map some) := by
  induction cs with
  | nil => exact .nil
  | cons c cs ih =>
      rw [List.all_cons, Bool.and_eq_true, decide_eq_true_eq] at h
      obtain ⟨⟨hc, hq, hb⟩, hrest⟩ := h
      exact .raw hc hq hb (ih hrest)

theorem spellsNumber_digit {c : Char} (h : c.isDigit = true) :
    Json.Standard.SpellsNumber [c] ⟨false, [c], [], 0⟩ := by
  have hdigits : Json.Standard.IsDigits [c] :=
    ⟨List.cons_ne_nil _ _, List.forall_mem_singleton.mpr h⟩
  have hzero : [c].head? = some '0' → [c] = ['0'] := by
    intro hc
    cases hc
    rfl
  exact @Json.Standard.SpellsNumber.mk false [c] [] [] [] 0 hdigits
    hzero .none .none

theorem tenText_standard :
    StandardDocument Double.finite tenText (some (tenFile 8 1)) := by
  let A := standardValues Double.finite
  have hstring : ∀ cs : List Char,
      (cs.all fun c => 0x20 ≤ c.toNat ∧ c ≠ '"' ∧ c ≠ '\\') = true → ∀ {t},
      standardLexicon.string ('"' :: (cs ++ '"' :: t)) (cs.map some) t :=
    fun _ h _ => ⟨_, rfl, spells_of_plain h⟩
  have hdepth : standardLexicon.number "8,\"action\":1\x7d\x7d".toList
      ⟨false, ['8'], [], 0⟩ ",\"action\":1\x7d\x7d".toList :=
    ⟨_, rfl, spellsNumber_digit (c := '8') rfl, by decide,
      fun c hc => by cases hc; rfl⟩
  have haction : standardLexicon.number "1\x7d\x7d".toList
      ⟨false, ['1'], [], 0⟩ "\x7d\x7d".toList :=
    ⟨_, rfl, spellsNumber_digit (c := '1') rfl, by decide,
      fun c hc => by cases hc; rfl⟩
  refine ⟨[], Json.Value.object_iff.mpr
    ⟨[("rule1".toList.map some, some (tenRule 8 1))], rfl, .inr (.last ⟨_, _,
    hstring "rule1".toList (by decide), rfl, _, Json.Value.object_iff.mpr
    ⟨[("ip".toList.map some, A.string ("10.0.0.0".toList.map some)),
      ("depth".toList.map some, A.number ⟨false, ['8'], [], 0⟩),
      ("action".toList.map some, A.number ⟨false, ['1'], [], 0⟩)],
    rfl, .inr (.more ⟨_, _, hstring "ip".toList (by decide), rfl, _,
      Json.Atom.toValue (.string (hstring "10.0.0.0".toList (by decide))),
      rfl⟩
    (.more ⟨_, _, hstring "depth".toList (by decide), rfl, _,
      Json.Atom.toValue (.number hdepth), rfl⟩
    (.last ⟨_, _, hstring "action".toList (by decide), rfl, _,
      Json.Atom.toValue (.number haction), rfl⟩)))⟩, rfl⟩)⟩, rfl⟩

theorem tenRule_wellFormed : WellFormed (tenRule 8 1) := by
  have hten : Decimal ['1', '0'] 10 :=
    ⟨by decide,
      List.forall_mem_cons.mpr ⟨rfl, List.forall_mem_singleton.mpr rfl⟩, rfl⟩
  have hzero : Decimal ['0'] 0 :=
    ⟨by decide, List.forall_mem_singleton.mpr rfl, rfl⟩
  have hquad : DottedQuad ⟨"10.0.0.0".toList, by decide⟩ 10 0 0 0 :=
    ⟨⟨_, _, _, _, hten, hzero, hzero, hzero, by decide⟩, by decide,
      by decide, by decide, by decide⟩
  exact ⟨⟨_, _, _, _, _, rfl, hquad⟩, ⟨8, by decide, rfl⟩, ⟨1, by decide, rfl⟩⟩

/-- The file with the one rule. -/
theorem setupRulesFile_standard_ten :
    ∃ limit array heap',
      setupRulesFile (oneFile tenText) zeroedEnv Double.finite limit
        (some rulesJson) (Heap.start fun _ => true) =
          .ok ((some array, 1), heap') ∧
      List.Forall₂ Faithful [tenRule 8 1] (array.entries.map Prod.snd) := by
  have hreadable : Readable (oneFile tenText) rulesJson ⟨tenText, by decide⟩ :=
    ⟨by decide, rfl, by decide, by decide, by decide, .inl (by decide)⟩
  obtain ⟨limit, array, tree, heap', hsetup, hfaithful, -⟩ :=
    setupRulesFile_standard (oneFile tenText) zeroedEnv Double.finite
      rulesJson _ tenText (tenFile 8 1) (Heap.start fun _ => true) hreadable
      (by decide) (fun _ _ => rfl) tenText_standard
      (List.forall_mem_singleton.mpr tenRule_wellFormed) fun _ => rfl
  exact ⟨limit, array, heap', hsetup, hfaithful⟩

end GhostDataplane.Engine
