import GhostDataplane.Lib.Stream
import GhostDataplane.Lib.While
import GhostDataplane.Engine.Rules

/-!
# The file of the firewall rules

`fw_config_parse_file` reads the whole file into `json_str` and hands that to
`cJSON_Parse`. The characters come through `temp_buf`, by calls of `fgets` that
are told the length of the file as the size of that buffer. What a call reads is
copied to the end of what is there, up to the first NUL that `strlen` finds.

The length of the file is a `long` that is kept in an `int`, and so is the
length plus one that `malloc` is asked for: both wrap here, and the second is
then converted to `size_t`. A write outside `temp_buf` or `json_str` is not
given a meaning. The state of the loop counts what the calls have stored, and
`outside` is the outcome of a run that has stored too much.
-/

namespace GhostDataplane.Engine

open GhostDataplane.Lib

/-- The size of `temp_buf`. -/
def tempBufSize : Nat := 255

/-- The conversion of a number to `int`. -/
def toInt (v : Int) : Int :=
  Int.bmod v 0x100000000

/-- `file_length`, from what `ftell` says at the end of the file. -/
def fileLength (file : List Char) : Int :=
  toInt file.length

/-- The size of `json_str`: `file_length + 1`, as the `size_t` that `malloc`
takes. -/
def jsonStrSize (file : List Char) : Nat :=
  (toInt (fileLength file + 1) % 0x10000000000000000).toNat

/-- What the function asks of the system: the files, whether there is memory,
and what fresh memory contains. No object is larger than `PTRDIFF_MAX`. -/
structure FileEnv where
  fopen : CString → Option (List Char)
  malloc : Nat → Bool
  malloced : Nat → Char
  malloc_le : ∀ size, malloc size = true → size ≤ 0x7FFFFFFFFFFFFFFF

/-- The state of the read loop: what is left of the file, what lies between
`json_str` and `tmp`, and the most bytes that a call has stored in
`temp_buf`. -/
structure ReadState where
  stream : List Char
  copied : List Char
  stored : Nat

def ReadState.start (file : List Char) : ReadState where
  stream := file
  copied := []
  stored := 0

/-- One turn of the loop, if `fgets` does not return NULL. -/
def readChunk (length : Int) (s : ReadState) : Option ReadState :=
  match fgets length s.stream with
  | none => none
  | some (line, rest) =>
      some
        { stream := rest
          copied := s.copied ++ (CString.ofBuffer (line ++ [nul])).chars
          stored := max s.stored (line.length + 1) }

/-- What becomes of a call: NULL is returned before anything is read, a byte is
written outside its buffer, or `cJSON_Parse` is called with a string. -/
inductive ConfigRead where
  | null
  | outside
  | parse (jsonStr : List Char)
  deriving DecidableEq

/-- The bytes of `json_str` up to the terminator at `file_length`. -/
def jsonStr (env : FileEnv) (length : Int) (copied : List Char) : List Char :=
  (List.range length.toNat).map (fun i => copied.getD i (env.malloced i)) ++
    [nul]

/-- What follows the loop. -/
def finishRead (env : FileEnv) (tempBuf : Nat) (file : List Char)
    (s : ReadState) : ConfigRead :=
  if tempBuf < s.stored ∨ jsonStrSize file < s.copied.length
      ∨ fileLength file < 0 then .outside
  else .parse (jsonStr env (fileLength file) s.copied)

/-- `fw_config_parse_file`, with a line buffer of `tempBuf` bytes; nothing if
the loop has not ended within the limit. -/
def fwConfigParseFile (env : FileEnv) (tempBuf limit : Nat)
    (filename : Option CString) : Option ConfigRead :=
  match filename with
  | none => some .null
  | some name =>
      if name.chars = [] then some .null
      else
        match env.fopen name with
        | none => some .null
        | some file =>
            if env.malloc (jsonStrSize file) then
              (whileLoop (readChunk (fileLength file)) limit (.start file)).map
                (finishRead env tempBuf file)
            else some .null

end GhostDataplane.Engine
