import GhostDataplane.Lib.Returns
import GhostDataplane.Lib.Heap
import GhostDataplane.Lib.Decimal
import GhostDataplane.Engine.Rules

/-!
# The JSON parser

`cJSON_Parse` of `thirdparty/cJSON.c`, function by function. The text is the
characters up to the NUL and the NUL itself; the parser goes through it by
index and every read is checked, so that a read after the NUL would be a fault
and not a value. So would be a byte that is stored outside its allocation, a
`free` of something that is not allocated, a loop that does not end and a
recursion that goes deeper than the stack, which is taken to have room for one
call more than `CJSON_NESTING_LIMIT`. Any allocation may fail.

An item is the `struct cJSON` with what its pointers point to. `next` and `prev`
are not fields: the items of a list stand in a `List`. `cJSON_IsReference` and
`cJSON_StringIsConst`, two flags in `type`, are never set by the parser and are
left out.

The character set is bytes. What is put together from a `\u` escape is stored
byte by byte, and a `char` in what follows is a character below 256.
-/

namespace GhostDataplane.Engine

open GhostDataplane.Lib

/-! ## Items -/

/-- The types of an item, in the order of their bits. -/
inductive ItemType where
  | invalid
  | false
  | true
  | null
  | number
  | string
  | array
  | object
deriving DecidableEq

/-- `struct cJSON`, with the address of its own block. A string comes with the
address of its block. -/
structure Item where
  ptr : Nat
  type : ItemType
  valuestring : Option (Nat × CString)
  valueint : Int
  valuedouble : Double
  string : Option (Nat × CString)
  child : List Item

/-- What `memset` leaves in a new item. -/
def Item.zero (ptr : Nat) : Item where
  ptr := ptr
  type := .invalid
  valuestring := none
  valueint := 0
  valuedouble := .finite 0
  string := none
  child := []

/-- `deallocate`, of a string that may be NULL. -/
def freeString (s : Option (Nat × CString)) (heap : Heap) : Option Heap :=
  match s with
  | none => some heap
  | some (ptr, _) => heap.free ptr

mutual

/-- One turn of the loop of `cJSON_Delete`. -/
def Item.delete : Item → Heap → Option Heap
  | ⟨ptr, _, valuestring, _, _, string, child⟩, heap =>
      (cJSONDelete child heap).bind fun heap =>
      (freeString valuestring heap).bind fun heap =>
      (freeString string heap).bind fun heap => heap.free ptr

/-- `cJSON_Delete`. -/
def cJSONDelete : List Item → Heap → Option Heap
  | [], heap => some heap
  | item :: next, heap => (item.delete heap).bind fun heap =>
      cJSONDelete next heap

end

/-! ## The buffer -/

/-- What must not happen. -/
inductive JsonFault where
  | readOutside
  | writeOutside
  | badFree
  | endless
  | tooDeep
deriving DecidableEq

/-- `parse_buffer`; the hooks are those of `heap`. -/
structure ParseBuffer where
  /-- The text, with its NUL. -/
  content : List Char
  offset : Nat
  depth : Nat
  heap : Heap

/-- `length`, which is `strlen(value) + sizeof("")`. -/
def ParseBuffer.length (b : ParseBuffer) : Nat := b.content.length

/-- `can_read`. -/
def ParseBuffer.canRead (b : ParseBuffer) (size : Nat) : Bool :=
  b.offset + size ≤ b.length

/-- `can_access_at_index`. -/
def ParseBuffer.canAccessAtIndex (b : ParseBuffer) (index : Nat) : Bool :=
  b.offset + index < b.length

abbrev Parsing (α : Type) := Checked ParseBuffer JsonFault α

open Checked (get modify throw loop)

/-- The byte with this index. -/
def byteAt (index : Nat) : Parsing Char := do
  let b ← get
  match b.content[index]? with
  | some c => pure c
  | none => throw .readOutside

/-- `buffer_at_offset(buffer)[index]`. -/
def bufferAtOffset (index : Nat) : Parsing Char := do
  let b ← get
  byteAt (b.offset + index)

def advance (n : Nat) : Parsing Unit :=
  modify fun b => { b with offset := b.offset + n }

/-- `offset--`. -/
def stepBack : Parsing Unit :=
  modify fun b => { b with offset := b.offset - 1 }

def moveTo (offset : Nat) : Parsing Unit :=
  modify fun b => { b with offset := offset }

/-- Can the next byte be accessed, and is it this one? -/
def atChar (c : Char) : Parsing Bool := do
  let b ← get
  if b.canAccessAtIndex 0 then
    let d ← bufferAtOffset 0
    pure (d == c)
  else pure false

/-- `strncmp` of the text at `index` and a word without NUL: are they equal? -/
def strncmp (index : Nat) : List Char → Parsing Bool
  | [] => pure true
  | c :: word => do
      let d ← byteAt index
      if d == c then strncmp (index + 1) word else pure false

/-- `can_read` for the length of the word, and `strncmp`. -/
def reads (word : List Char) : Parsing Bool := do
  let b ← get
  if b.canRead word.length then strncmp b.offset word else pure false

def allocate : Parsing (Option Nat) := do
  let b ← get
  modify fun b => { b with heap := b.heap.allocate.2 }
  pure b.heap.allocate.1

def deallocate (ptr : Nat) : Parsing Unit := do
  let b ← get
  match b.heap.free ptr with
  | some heap => modify fun b => { b with heap := heap }
  | none => throw .badFree

/-- `cJSON_Delete`, on the heap of the buffer. -/
def deleteItems (items : List Item) : Parsing Unit := do
  let b ← get
  match cJSONDelete items b.heap with
  | some heap => modify fun b => { b with heap := heap }
  | none => throw .badFree

/-- `cJSON_New_Item`. -/
def cJSONNewItem : Parsing (Option Item) := do
  let node ← allocate
  pure (node.map Item.zero)

/-- `buffer_skip_whitespace`. -/
def bufferSkipWhitespace : Parsing Unit := do
  let b ← get
  loop .endless (fun _ => do
      let b ← get
      if b.canAccessAtIndex 0 then
        let c ← bufferAtOffset 0
        if c.toNat ≤ 32 then
          advance 1
          pure (.again ())
        else pure (.done ())
      else pure (.done ()))
    (b.length + 1) ()
  let b ← get
  if b.offset = b.length then stepBack else pure ()

/-- `skip_utf8_bom`, at the beginning of the buffer. -/
def skipUtf8Bom : Parsing Unit := do
  let b ← get
  if b.canAccessAtIndex 4 then
    let bom ← strncmp b.offset
      [Char.ofNat 0xEF, Char.ofNat 0xBB, Char.ofNat 0xBF]
    if bom then advance 3 else pure ()
  else pure ()

/-! ## Numbers -/

/-- The characters that `parse_number` copies. -/
def isNumberChar (c : Char) : Bool :=
  c.isDigit || c == '+' || c == '-' || c == 'e' || c == 'E' || c == '.'

/-- The loop that fills `number_c_string`, from index `i` on. The decimal point
of the locale is taken to be the point. -/
def copyNumber : (room i : Nat) → Parsing (List Char)
  | 0, _ => pure []
  | room + 1, i => do
      let b ← get
      if b.canAccessAtIndex i then
        let c ← bufferAtOffset i
        if isNumberChar c then
          let numberCString ← copyNumber room (i + 1)
          pure (c :: numberCString)
        else pure []
      else pure []

/-- `strtod`, of a text of these characters: the number and how many characters
it takes. The number is rounded to a `double` by the C library. -/
def strtod (round : Rat → Double) (text : List Char) : Option (Double × Nat) :=
  (scanDecimal text).map fun (number, rest) =>
    (round number.value, text.length - rest.length)

/-- `sizeof(number_c_string)`. -/
def numberCStringSize : Nat := 64

/-- `parse_number`. -/
def parseNumber (round : Rat → Double) (item : Item) :
    Parsing (Option Item) := do
  let numberCString ← copyNumber (numberCStringSize - 1) 0
  match strtod round numberCString with
  | none => pure none
  | some (number, length) => do
      advance length
      pure (some
        { item with
          valuedouble := number
          valueint := number.valueInt
          type := .number })

/-! ## Strings -/

/-- One digit of `parse_hex4`. -/
def hexDigit (c : Char) : Option Nat :=
  if '0' ≤ c ∧ c ≤ '9' then some (c.toNat - '0'.toNat)
  else if 'A' ≤ c ∧ c ≤ 'F' then some (10 + (c.toNat - 'A'.toNat))
  else if 'a' ≤ c ∧ c ≤ 'f' then some (10 + (c.toNat - 'a'.toNat))
  else none

/-- The loop of `parse_hex4`, with `digits` of the four digits to come. -/
def parseHexDigits (input h : Nat) : (digits : Nat) → Parsing Nat
  | 0 => pure h
  | digits + 1 => do
      let c ← byteAt input
      match hexDigit c with
      | none => pure 0
      | some d =>
          if digits = 0 then pure (h + d)
          else parseHexDigits (input + 1) ((h + d) <<< 4) digits

/-- `parse_hex4`: 0 if one of the four is not a digit. -/
def parseHex4 (input : Nat) : Parsing Nat := parseHexDigits input 0 4

/-- The loop that encodes the last `n` bytes, the last one first: the bytes, in
the order in which they stand, and what remains of the code point. -/
def continuationBytes : (n codepoint : Nat) → List Nat → List Nat × Nat
  | 0, codepoint, bytes => (bytes, codepoint)
  | n + 1, codepoint, bytes =>
      continuationBytes n (codepoint >>> 6)
        (((codepoint ||| 0x80) &&& 0xBF) :: bytes)

/-- The UTF-8 bytes of a code point, if there are any. -/
def encodeUtf8 (codepoint : Nat) : Option (List Char) :=
  if codepoint < 0x80 then some [Char.ofNat (codepoint &&& 0x7F)]
  else if codepoint < 0x800 then some (mark 1 0xC0)
  else if codepoint < 0x10000 then some (mark 2 0xE0)
  else if codepoint ≤ 0x10FFFF then some (mark 3 0xF0)
  else none
where
  mark (n firstByteMark : Nat) : List Char :=
    let (bytes, codepoint) := continuationBytes n codepoint []
    (((codepoint ||| firstByteMark) &&& 0xFF) :: bytes).map Char.ofNat

/-- The part of `utf16_literal_to_utf8` about the second sequence of a surrogate
pair: `second_code`, unless it fails. -/
def parseSecondCode (secondSequence inputEnd : Nat) : Parsing (Option Nat) :=
  if inputEnd - secondSequence < 6 then pure none
  else do
    let c ← byteAt secondSequence
    if c ≠ '\\' then pure none
    else
      let d ← byteAt (secondSequence + 1)
      if d ≠ 'u' then pure none
      else
        let secondCode ← parseHex4 (secondSequence + 2)
        if secondCode < 0xDC00 ∨ 0xDFFF < secondCode then pure none
        else pure (some secondCode)

/-- `utf16_literal_to_utf8`: the bytes and the length of the sequence, unless it
fails. -/
def utf16LiteralToUtf8 (inputPointer inputEnd : Nat) :
    Parsing (Option (List Char × Nat)) :=
  if inputEnd - inputPointer < 6 then pure none
  else do
    let firstCode ← parseHex4 (inputPointer + 2)
    if 0xDC00 ≤ firstCode ∧ firstCode ≤ 0xDFFF then pure none
    else if 0xD800 ≤ firstCode ∧ firstCode ≤ 0xDBFF then
      let secondCode ← parseSecondCode (inputPointer + 6) inputEnd
      match secondCode with
      | none => pure none
      | some secondCode =>
          let codepoint :=
            0x10000 +
              (((firstCode &&& 0x3FF) <<< 10) ||| (secondCode &&& 0x3FF))
          pure ((encodeUtf8 codepoint).map fun bytes => (bytes, 12))
    else pure ((encodeUtf8 firstCode).map fun bytes => (bytes, 6))

/-- What stands after the bytes already in `output`, a block of `size` bytes. -/
def put (size : Nat) (output bytes : List Char) : Parsing (List Char) :=
  if output.length + bytes.length ≤ size then pure (output ++ bytes)
  else throw .writeOutside

/-- The first loop of `parse_string`: `input_end` and `skipped_bytes` where it
ends, nothing if the text ends in the middle of an escape. -/
def scanTurn : Nat × Nat → Parsing (Turn (Nat × Nat) (Option (Nat × Nat)))
  | (inputEnd, skippedBytes) => do
      let b ← get
      if inputEnd < b.length then
        let c ← byteAt inputEnd
        if c = '"' then pure (.done (some (inputEnd, skippedBytes)))
        else if c = '\\' then
          if inputEnd + 1 ≥ b.length then pure (.done none)
          else pure (.again (inputEnd + 2, skippedBytes + 1))
        else pure (.again (inputEnd + 1, skippedBytes))
      else pure (.done (some (inputEnd, skippedBytes)))

/-- The closing quote and the number of escapes before it. -/
def scanString (start : Nat) : Parsing (Option (Nat × Nat)) := do
  let b ← get
  let ended ← loop .endless scanTurn (b.length + 1) (start, 0)
  match ended with
  | none => pure none
  | some (inputEnd, skippedBytes) =>
      if inputEnd ≥ b.length then pure none
      else do
        let c ← byteAt inputEnd
        if c ≠ '"' then pure none
        else pure (some (inputEnd, skippedBytes))

/-- The escapes of one character. -/
def simpleEscape (c : Char) : Option Char :=
  if c = 'b' then some (Char.ofNat 8)
  else if c = 'f' then some (Char.ofNat 12)
  else if c = 'n' then some '\n'
  else if c = 'r' then some '\r'
  else if c = 't' then some '\t'
  else if c = '"' ∨ c = '\\' ∨ c = '/' then some c
  else none

/-- The second loop of `parse_string`, with `input_pointer` and what is before
`output_pointer`; it is left with nothing where the source goes to `fail`. -/
def unescapeTurn (size inputEnd : Nat) :
    Nat × List Char →
    Parsing (Turn (Nat × List Char) (Nat × Option (List Char)))
  | (inputPointer, output) =>
      if inputPointer < inputEnd then do
        let c ← byteAt inputPointer
        if c ≠ '\\' then
          let output ← put size output [c]
          pure (.again (inputPointer + 1, output))
        else if inputEnd - inputPointer < 1
          then pure (.done (inputPointer, none))
        else
          let d ← byteAt (inputPointer + 1)
          if d = 'u' then
            let literal ← utf16LiteralToUtf8 inputPointer inputEnd
            match literal with
            | none => pure (.done (inputPointer, none))
            | some (bytes, sequenceLength) =>
                let output ← put size output bytes
                pure (.again (inputPointer + sequenceLength, output))
          else
            match simpleEscape d with
            | none => pure (.done (inputPointer, none))
            | some c =>
                let output ← put size output [c]
                pure (.again (inputPointer + 2, output))
      else pure (.done (inputPointer, some output))

/-- `parse_string`. -/
def parseString (item : Item) : Parsing (Option Item) := do
  let b ← get
  let inputPointer := b.offset + 1
  let c ← bufferAtOffset 0
  if c ≠ '"' then
    moveTo inputPointer
    pure none
  else
    let closed ← scanString inputPointer
    match closed with
    | none =>
        moveTo inputPointer
        pure none
    | some (inputEnd, skippedBytes) =>
        let size := (inputEnd - b.offset - skippedBytes) + 1
        let output ← allocate
        match output with
        | none =>
            moveTo inputPointer
            pure none
        | some ptr =>
            let decoded ← loop .endless (unescapeTurn size inputEnd)
              (b.length + 1)
              (inputPointer, [])
            match decoded with
            | (inputPointer, none) =>
                deallocate ptr
                moveTo inputPointer
                pure none
            | (_, some output) =>
                let output ← put size output [nul]
                moveTo (inputEnd + 1)
                pure (some
                  { item with
                    type := .string
                    valuestring := some (ptr, CString.ofBuffer output) })

/-! ## Arrays and objects

The functions call each other. Here each of the two takes the parser of a value
as an argument, and `parseValue` ties the knot. -/

/-- `CJSON_NESTING_LIMIT`. -/
def nestingLimit : Nat := 1000

/-- How the loop over the items ends: with a list that is to be deleted, or with
one that the closing bracket should follow. -/
abbrev ItemsEnd := Except (List Item) (List Item)

/-- One turn of the loop of `parse_array`; `items` is the list from `head`
on. -/
def arrayTurn (value : Item → Parsing (Option Item)) (items : List Item) :
    Parsing (Turn (List Item) ItemsEnd) := do
  let newItem ← cJSONNewItem
  match newItem with
  | none => pure (.done (.error items))
  | some newItem =>
      advance 1
      bufferSkipWhitespace
      let parsed ← value newItem
      match parsed with
      | none => pure (.done (.error (items ++ [newItem])))
      | some currentItem =>
          bufferSkipWhitespace
          let comma ← atChar ','
          if comma then pure (.again (items ++ [currentItem]))
          else pure (.done (.ok (items ++ [currentItem])))

/-- One turn of the loop of `parse_object`. -/
def objectTurn (value : Item → Parsing (Option Item)) (items : List Item) :
    Parsing (Turn (List Item) ItemsEnd) := do
  let newItem ← cJSONNewItem
  match newItem with
  | none => pure (.done (.error items))
  | some newItem =>
      advance 1
      bufferSkipWhitespace
      let name ← parseString newItem
      match name with
      | none => pure (.done (.error (items ++ [newItem])))
      | some named =>
          bufferSkipWhitespace
          -- The name was parsed into the field for the value.
          let currentItem :=
            { named with string := named.valuestring, valuestring := none }
          let colon ← atChar ':'
          if colon then
            advance 1
            bufferSkipWhitespace
            let parsed ← value currentItem
            match parsed with
            | none => pure (.done (.error (items ++ [currentItem])))
            | some currentItem =>
                bufferSkipWhitespace
                let comma ← atChar ','
                if comma then pure (.again (items ++ [currentItem]))
                else pure (.done (.ok (items ++ [currentItem])))
          else pure (.done (.error (items ++ [currentItem])))

/-- The end of `parse_array` and `parse_object`, from `success` on. -/
def closeItems (type : ItemType) (item : Item) (head : List Item) :
    Parsing (Option Item) := do
  modify fun b => { b with depth := b.depth - 1 }
  advance 1
  pure (some { item with type := type, child := head })

/-- `parse_array` and `parse_object` from the opening bracket on. -/
def parseItems (closing : Char) (type : ItemType)
    (turn : List Item → Parsing (Turn (List Item) ItemsEnd)) (item : Item) :
    Parsing (Option Item) := do
  advance 1
  bufferSkipWhitespace
  let empty ← atChar closing
  if empty then closeItems type item []
  else
    let b ← get
    if b.canAccessAtIndex 0 then
      stepBack
      let ended ← loop .endless turn (b.length + 1) []
      match ended with
      | .error head =>
          deleteItems head
          pure none
      | .ok head =>
          let closed ← atChar closing
          if closed then closeItems type item head
          else
            deleteItems head
            pure none
    else
      stepBack
      pure none

/-- `parse_array`. -/
def parseArray (value : Item → Parsing (Option Item)) (item : Item) :
    Parsing (Option Item) := do
  let b ← get
  if b.depth ≥ nestingLimit then pure none
  else
    modify fun b => { b with depth := b.depth + 1 }
    let c ← bufferAtOffset 0
    if c ≠ '[' then pure none
    else parseItems ']' .array (arrayTurn value) item

/-- `parse_object`. -/
def parseObject (value : Item → Parsing (Option Item)) (item : Item) :
    Parsing (Option Item) := do
  let b ← get
  if b.depth ≥ nestingLimit then pure none
  else
    modify fun b => { b with depth := b.depth + 1 }
    let opened ← atChar '{'
    if opened then parseItems '}' .object (objectTurn value) item
    else pure none

/-- Is the next byte there, and can a number begin with it? -/
def atNumber : Parsing Bool := do
  let b ← get
  if b.canAccessAtIndex 0 then
    let c ← bufferAtOffset 0
    pure (c == '-' || ('0' ≤ c && c ≤ '9'))
  else pure false

/-- `parse_value`, with room for so many calls of it on the stack. -/
def parseValue (round : Rat → Double) :
    (levels : Nat) → Item → Parsing (Option Item)
  | 0, _ => throw .tooDeep
  | levels + 1, item => do
      let isNull ← reads ['n', 'u', 'l', 'l']
      if isNull then
        advance 4
        pure (some { item with type := .null })
      else
        let isFalse ← reads ['f', 'a', 'l', 's', 'e']
        if isFalse then
          advance 5
          pure (some { item with type := .false })
        else
          let isTrue ← reads ['t', 'r', 'u', 'e']
          if isTrue then
            advance 4
            pure (some { item with type := .true, valueint := 1 })
          else
            let isString ← atChar '"'
            if isString then parseString item
            else
              let isNumber ← atNumber
              if isNumber then parseNumber round item
              else
                let isArray ← atChar '['
                if isArray then parseArray (parseValue round levels) item
                else
                  let isObject ← atChar '{'
                  if isObject then parseObject (parseValue round levels) item
                  else pure none

/-! ## `cJSON_Parse` -/

/-- `cJSON_ParseWithOpts` with its buffer set up, but for the position of an
error. -/
def parseDocument (round : Rat → Double) (requireNullTerminated : Bool) :
    Parsing (Option Item) := do
  let item ← cJSONNewItem
  match item with
  | none => pure none
  | some item =>
      skipUtf8Bom
      bufferSkipWhitespace
      let parsed ← parseValue round (nestingLimit + 1) item
      match parsed with
      | none =>
          deleteItems [item]
          pure none
      | some item =>
          if requireNullTerminated then
            bufferSkipWhitespace
            let terminated ← atChar nul
            if terminated then pure (some item)
            else
              deleteItems [item]
              pure none
          else pure (some item)

/-- The buffer that `cJSON_ParseWithOpts` sets up. -/
def ParseBuffer.start (value : CString) (heap : Heap) : ParseBuffer where
  content := value.chars ++ [nul]
  offset := 0
  depth := 0
  heap := heap

/-- `global_error.position` after a failure. -/
def ParseBuffer.errorPosition (b : ParseBuffer) : Nat :=
  if b.offset < b.length then b.offset
  else if b.length > 0 then b.length - 1
  else 0

/-- `cJSON_ParseWithOpts`: the item or the position of the error, and the heap
afterwards. -/
def cJSONParseWithOpts (round : Rat → Double) (value : CString)
    (requireNullTerminated : Bool) (heap : Heap) :
    Except JsonFault (Except Nat Item × Heap) :=
  match parseDocument round requireNullTerminated (.start value heap) with
  | .error e => .error e
  | .ok (none, b) => .ok (.error b.errorPosition, b.heap)
  | .ok (some item, b) => .ok (.ok item, b.heap)

/-- `cJSON_Parse`. -/
def cJSONParse (round : Rat → Double) (value : CString) (heap : Heap) :
    Except JsonFault (Except Nat Item × Heap) :=
  cJSONParseWithOpts round value false heap

end GhostDataplane.Engine
