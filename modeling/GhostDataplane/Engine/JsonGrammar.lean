import GhostDataplane.Lib.Json
import GhostDataplane.Engine.Json

/-!
# The language of the JSON parser

Which texts the parser reads, and as what. The brackets, commas and words are
those of the grammar in `Lib.Json`; what is particular to the parser is its
lexicon.

Every character up to the blank is white space. A number is what `strtod` takes
from the first 63 characters that could belong to one. A string ends at the
first quote that no backslash escapes, but what is in it is then read again by
other rules: a `\u` takes the next four characters whatever they are, and with
them it may take the backslash of the next escape. Where the two readings come
apart a backslash can end up as the last character of a string. The quote that
ends the string is then read as what it escapes, and the reading ends behind
it. Four characters that are not a hexadecimal number stand for 0, which ends
the string that is returned.
-/

namespace GhostDataplane.Engine

open GhostDataplane.Lib

/-! ## Strings -/

/-- A string, from behind its opening quote: what is in it and what comes after
its closing quote. -/
def splitString : List Char → Option (List Char × List Char)
  | [] => none
  | c :: t =>
      if c = '"' then some ([], t)
      else if c = '\\' then
        match t with
        | [] => none
        | d :: t => (splitString t).map fun r => ('\\' :: d :: r.1, r.2)
      else (splitString t).map fun r => (c :: r.1, r.2)

/-- The number that four characters spell, 0 if it is none. -/
def hex4 (a b c d : Char) : Nat :=
  match hexDigit a, hexDigit b, hexDigit c, hexDigit d with
  | some a, some b, some c, some d => a * 4096 + b * 256 + c * 16 + d
  | _, _, _, _ => 0

/-- The code point of a surrogate pair. -/
def surrogatePair (high low : Nat) : Nat :=
  0x10000 + (((high &&& 0x3FF) <<< 10) ||| (low &&& 0x3FF))

/-- What the characters of a string stand for. The first text ends with the
closing quote, or is empty if that is already used up. -/
inductive Decodes : List Char → List Char → Prop where
  | passed : Decodes [] []
  | close {c : Char} : Decodes [c] []
  | plain {c d : Char} {t out : List Char} (hc : c ≠ '\\')
      (h : Decodes (d :: t) out) :
      Decodes (c :: d :: t) (c :: out)
  | simple {d e : Char} {t out : List Char} (hd : simpleEscape d = some e)
      (h : Decodes t out) : Decodes ('\\' :: d :: t) (e :: out)
  | unicode {a b c d x : Char} {t bytes out : List Char}
      (hcode : ¬ (0xD800 ≤ hex4 a b c d ∧ hex4 a b c d ≤ 0xDFFF))
      (hbytes : encodeUtf8 (hex4 a b c d) = some bytes)
      (h : Decodes (x :: t) out) :
      Decodes ('\\' :: 'u' :: a :: b :: c :: d :: x :: t) (bytes ++ out)
  | pair {a b c d a' b' c' d' x : Char} {t bytes out : List Char}
      (hhigh : 0xD800 ≤ hex4 a b c d ∧ hex4 a b c d ≤ 0xDBFF)
      (hlow : 0xDC00 ≤ hex4 a' b' c' d' ∧ hex4 a' b' c' d' ≤ 0xDFFF)
      (hbytes : encodeUtf8 (surrogatePair (hex4 a b c d) (hex4 a' b' c' d')) =
        some bytes)
      (h : Decodes (x :: t) out) :
      Decodes
        ('\\' :: 'u' :: a :: b :: c :: d ::
          '\\' :: 'u' :: a' :: b' :: c' :: d' :: x :: t) (bytes ++ out)

theorem Decodes.unique {t out out' : List Char} (h : Decodes t out)
    (h' : Decodes t out') : out = out' := by
  have hu : simpleEscape 'u' = none := by decide
  induction h generalizing out' with
  | passed => cases h'; rfl
  | close => cases h'; rfl
  | plain hc _ ih =>
      cases h' with
      | plain _ h' => rw [ih h']
      | _ => exact absurd rfl hc
  | simple hd _ ih =>
      cases h' with
      | plain hc _ => exact absurd rfl hc
      | simple hd' h' =>
          rw [hd] at hd'
          cases hd'
          rw [ih h']
      | _ => rw [hu] at hd; cases hd
  | unicode hcode hbytes _ ih =>
      cases h' with
      | plain hc _ => exact absurd rfl hc
      | simple hd' _ => rw [hu] at hd'; cases hd'
      | unicode _ hbytes' h' =>
          rw [hbytes] at hbytes'
          cases hbytes'
          rw [ih h']
      | pair hhigh _ _ _ => omega
  | pair hhigh hlow hbytes _ ih =>
      cases h' with
      | plain hc _ => exact absurd rfl hc
      | simple hd' _ => rw [hu] at hd'; cases hd'
      | unicode hcode _ _ => omega
      | pair _ _ hbytes' h' =>
          rw [hbytes] at hbytes'
          cases hbytes'
          rw [ih h']

/-! ## The lexicon -/

/-- The characters that are handed to `strtod`. -/
def numberRun (t : List Char) : List Char :=
  (t.takeWhile isNumberChar).take (numberCStringSize - 1)

/-- What the parser takes for a blank, a string and a number. -/
def lexicon (round : Rat → Double) : Json.Lexicon CString Double where
  blank c := c.toNat ≤ 32
  string t s t' :=
    ∃ u body out, t = '"' :: u ∧ splitString u = some (body, t') ∧
      Decodes (body ++ ['"']) out ∧ s = CString.ofBuffer (out ++ [nul])
  number t x t' :=
    ∃ c u length, t = c :: u ∧ Json.startsNumber c = true ∧
      strtod round (numberRun t) = some (x, length) ∧ t' = t.drop length
  blank_le c hc := by simpa using hc
  string_head := by
    rintro t s t' ⟨u, _, _, rfl, _⟩
    exact ⟨u, rfl⟩
  number_head := by
    rintro t x t' ⟨c, u, _, rfl, hc, _⟩
    exact ⟨c, u, rfl, hc⟩

theorem lexicon_isFunctional (round : Rat → Double) :
    (lexicon round).IsFunctional where
  string := by
    rintro t s s' t' t'' ⟨u, body, out, rfl, hsplit, hout, rfl⟩
      ⟨u', body', out', hu, hsplit', hout', rfl⟩
    cases hu
    rw [hsplit] at hsplit'
    cases hsplit'
    rw [hout.unique hout']
    exact ⟨rfl, rfl⟩
  number := by
    rintro t x x' t' t'' ⟨_, _, length, _, _, hx, rfl⟩
      ⟨_, _, length', _, _, hx', rfl⟩
    rw [hx] at hx'
    cases hx'
    exact ⟨rfl, rfl⟩

/-- The values that the rest of the engine works with. -/
def values : Json.Values CString Double CJson where
  null := .null
  bool := .bool
  string := .string
  number := .number
  array := .array
  object := .object

/-- A value at the beginning of a text, as the parser reads it. -/
abbrev JsonValue (round : Rat → Double) :
    Nat → List Char → CJson → List Char → Prop :=
  Json.Value (lexicon round) values

/-- Without a byte order mark, which is looked for only if another two bytes
follow it, one of which may be the NUL. -/
def withoutBom (t : List Char) : List Char :=
  if [Char.ofNat 0xEF, Char.ofNat 0xBB, Char.ofNat 0xBF].isPrefixOf t ∧
      3 < t.length
  then t.drop 3 else t

/-- A document: a value with nothing but blanks before it. What comes after it
is not looked at. -/
def JsonDocument (round : Rat → Double) (t : List Char) (v : CJson)
    (t' : List Char) : Prop :=
  JsonValue round nestingLimit ((lexicon round).skip (withoutBom t)) v t'

/-! ## Items -/

/-- The type of an item with this value. -/
def CJson.itemType : CJson → ItemType
  | .null => .null
  | .bool false => .false
  | .bool true => .true
  | .string _ => .string
  | .number _ => .number
  | .array _ => .array
  | .object _ => .object

/-- `valuedouble` of an item with this value. -/
def CJson.valueDouble : CJson → Double
  | .number d => d
  | _ => .finite 0

mutual

/-- The item has this value in its fields. -/
inductive Carries : Item → CJson → Prop where
  | mk {item : Item} {v : CJson} (type : item.type = v.itemType)
      (valuestring : item.valuestring.map Prod.snd = v.valueString)
      (valueint : item.valueint = v.valueInt)
      (valuedouble : item.valuedouble = v.valueDouble)
      (child : CarriesAll item.child v.child) : Carries item v

/-- The items of a list have these names and values. -/
inductive CarriesAll : List Item → List (Option CString × CJson) → Prop where
  | nil : CarriesAll [] []
  | cons {item : Item} {items : List Item} {child : Option CString × CJson}
      {children : List (Option CString × CJson)}
      (name : item.string.map Prod.snd = child.1) (value : Carries item child.2)
      (rest : CarriesAll items children) :
        CarriesAll (item :: items) (child :: children)

end

/-- The fields tell the value. -/
theorem CJson.eq_of_fields {v w : CJson} (htype : v.itemType = w.itemType)
    (hstring : v.valueString = w.valueString)
    (hdouble : v.valueDouble = w.valueDouble)
    (hchild : v.child = w.child) : v = w := by
  rcases v with _ | (_ | _) | s | d | vs | ms <;>
    rcases w with _ | (_ | _) | s' | d' | vs' | ms' <;>
    first
    | (cases htype; done)
    | rfl
    | exact congrArg CJson.string (Option.some.inj hstring)
    | exact congrArg CJson.number hdouble
    | skip
  · exact congrArg CJson.array
      (List.map_injective_iff.mpr (Prod.mk_right_injective _) hchild)
  · refine congrArg CJson.object (List.map_injective_iff.mpr ?_ hchild)
    rintro ⟨k, v⟩ ⟨k', v'⟩ heq
    cases heq
    rfl

mutual

theorem Carries.unique {item : Item} {v w : CJson} :
    Carries item v → Carries item w → v = w
  | .mk ht hs _ hd hc, .mk ht' hs' _ hd' hc' => by
      exact CJson.eq_of_fields (ht.symm.trans ht') (hs.symm.trans hs')
        (hd.symm.trans hd')
        (hc.unique hc')

theorem CarriesAll.unique {items : List Item}
    {cs ds : List (Option CString × CJson)} :
    CarriesAll items cs → CarriesAll items ds → cs = ds
  | .nil, .nil => rfl
  | .cons hn hv hr, .cons hn' hv' hr' => by
      rw [Prod.ext (hn.symm.trans hn') (hv.unique hv'), hr.unique hr']

end

/-- The block of a string, if there is one. -/
def stringBlock (s : Option (Nat × CString)) : List Nat := s.toList.map Prod.fst

mutual

/-- The blocks of a tree. -/
def Item.blocks : Item → List Nat
  | ⟨ptr, _, valuestring, _, _, string, child⟩ =>
      itemsBlocks child ++ stringBlock valuestring ++
        stringBlock string ++ [ptr]

/-- The blocks of a list of trees. -/
def itemsBlocks : List Item → List Nat
  | [] => []
  | item :: items => item.blocks ++ itemsBlocks items

end

end GhostDataplane.Engine
