import GhostDataplane.Engine.ConfigFile

/-!
# Reading the rule file

The calls of `fgets` are told the length of the file where the size of the
buffer belongs, and everything here follows from that.

The line buffer holds what it is given exactly if the length that the calls are
told is not greater than its size, or each line of the file fits into it. The
state of the loop is followed in one direction by an invariant: the lines that
are left are as short as those of the file. In the other direction the loop is
followed line by line. As long as nothing has been stored outside, each call has
taken a line to its end, so the next call meets the next line.

`json_str` holds what is copied into it as long as the length of the file is an
`int`. A longer file comes to the loop only if its length wraps to one that
there is memory for, and then what is copied of it, each chunk up to its first
NUL, has to fit into that.

The loop ends because a call takes something off the file, and for that the size
it is told must leave room for more than the terminator. An empty file needs no
turn. A file of one character makes every call store the empty string, and the
loop never ends. Where it ends, what is copied and what is left make up the
file, and nothing is left.
-/

namespace GhostDataplane.Engine

open GhostDataplane.Lib

section ConfigFile

variable {file : List Char} {length : Int} {s s' : ReadState}

/-! ## The sizes -/

theorem toInt_of_le {v : Int} (h₀ : 0 ≤ v) (h : v ≤ intMax) : toInt v = v := by
  rw [intMax] at h
  rw [toInt, Int.bmod]
  split <;> omega

theorem fileLength_of_lt (h : (file.length : Int) < intMax) :
    fileLength file = file.length :=
  toInt_of_le (Int.natCast_nonneg _) (Int.le_of_lt h)

theorem fileLength_le (file : List Char) : fileLength file ≤ intMax := by
  rw [fileLength, toInt, intMax, Int.bmod]
  split <;> omega

theorem jsonStrSize_of_lt (h : (file.length : Int) < intMax) :
    jsonStrSize file = file.length + 1 := by
  rw [jsonStrSize, fileLength_of_lt h, toInt_of_le (by omega) (by omega)]
  rw [intMax] at h
  omega

/-- For the longest file whose length is an `int`, the size that `malloc` is
asked for wraps to one that it cannot give. -/
theorem malloc_of_fileLength_eq (env : FileEnv)
    (h : fileLength file = intMax) : env.malloc (jsonStrSize file) = false := by
  have hsize : jsonStrSize file = 0xFFFFFFFF80000000 := by
    rw [jsonStrSize, h]
    decide
  cases hm : env.malloc (jsonStrSize file) with
  | false => rfl
  | true =>
      have hle := env.malloc_le _ hm
      rw [hsize] at hle
      exact absurd hle (by decide)

/-! ## One turn -/

theorem readChunk_eq_some (h : readChunk length s = some s') :
    ∃ line, fgets length s.stream = some (line, s'.stream)
      ∧ s'.copied = s.copied ++ (CString.ofBuffer (line ++ [nul])).chars
      ∧ s'.stored = max s.stored (line.length + 1) := by
  rw [readChunk] at h
  split at h
  · cases h
  · next line rest hf =>
      cases h
      exact ⟨line, hf, rfl, rfl⟩

theorem readChunk_of_fgets {line rest : List Char}
    (h : fgets length s.stream = some (line, rest)) :
    ∃ s', readChunk length s = some s' ∧ s'.stream = rest
      ∧ s'.stored = max s.stored (line.length + 1) := by
  rw [readChunk, h]
  exact ⟨_, rfl, rfl, rfl⟩

theorem readChunk_eq_none (h : readChunk length s = none) :
    fgets length s.stream = none := by
  rw [readChunk] at h
  split at h
  · next hf => exact hf
  · cases h

/-- A turn copies no more than it takes. -/
theorem readChunk_length_le (h : readChunk length s = some s') :
    s'.copied.length + s'.stream.length ≤
      s.copied.length + s.stream.length := by
  obtain ⟨line, hf, hcopied, -⟩ := readChunk_eq_some h
  have happ := congrArg List.length (fgets_append hf)
  have hle := CString.ofBuffer_length_le line
  rw [List.length_append] at happ
  rw [hcopied, List.length_append]
  omega

theorem readChunk_stored_le {n : Nat} (hs : s.stored ≤ n)
    (hlength : length ≤ n) (h : readChunk length s = some s') :
    s'.stored ≤ n := by
  obtain ⟨line, hf, -, hstored⟩ := readChunk_eq_some h
  have hlt := fgets_length_lt hf
  omega

/-- Without a NUL in the file, a turn moves characters from what is left to what
is copied. -/
theorem readChunk_append (hnul : nul ∉ s.stream)
    (h : readChunk length s = some s') :
    s'.copied ++ s'.stream = s.copied ++ s.stream := by
  obtain ⟨line, hf, hcopied, -⟩ := readChunk_eq_some h
  have happ := fgets_append hf
  have hline : nul ∉ line := by
    intro hmem
    rw [← happ] at hnul
    exact hnul (List.mem_append_left _ hmem)
  rw [hcopied, CString.ofBuffer_append ⟨line, hline⟩ [],
    List.append_assoc, happ]

/-! ## The buffers -/

theorem copied_length_le (h : AtHead (readChunk length) (.start file) s) :
    s.copied.length ≤ file.length := by
  have hinv : s.copied.length + s.stream.length ≤ file.length :=
    h.invariant (I := fun s => s.copied.length + s.stream.length ≤ file.length)
      (fun _ _ hi ht => Nat.le_trans (readChunk_length_le ht) hi)
      (by simp [ReadState.start])
  omega

theorem stored_le_of_length_le {n : Nat} (hlength : length ≤ n)
    (h : AtHead (readChunk length) (.start file) s) : s.stored ≤ n :=
  h.invariant (I := fun s => s.stored ≤ n)
    (fun _ _ hi ht => readChunk_stored_le hi hlength ht) (Nat.zero_le _)

theorem readChunk_lines_le {m : Nat}
    (hlines : ∀ line ∈ textLines s.stream, line.length ≤ m)
    (hs : s.stored ≤ m + 1) (h : readChunk length s = some s') :
    (∀ line ∈ textLines s'.stream, line.length ≤ m) ∧ s'.stored ≤ m + 1 := by
  obtain ⟨line, hf, -, hstored⟩ := readChunk_eq_some h
  obtain ⟨hline, hrest⟩ := fgets_lines_le hf hlines
  refine ⟨hrest, ?_⟩
  rw [hstored]
  exact Nat.max_le.mpr ⟨hs, Nat.succ_le_succ hline⟩

/-- With short lines, no call stores too much, whatever size it is told. -/
theorem stored_le_of_lines_le {m : Nat}
    (hlines : ∀ line ∈ textLines file, line.length ≤ m)
    (h : AtHead (readChunk length) (.start file) s) : s.stored ≤ m + 1 := by
  have hinv : (∀ line ∈ textLines s.stream, line.length ≤ m) ∧
      s.stored ≤ m + 1 :=
    h.invariant
      (I := fun s => (∀ line ∈ textLines s.stream, line.length ≤ m)
        ∧ s.stored ≤ m + 1)
      (fun _ _ hi ht => readChunk_lines_le hi.1 hi.2 ht) ⟨hlines, Nat.zero_le _⟩
  exact hinv.2

/-- If the calls are told more than the buffer holds and nothing is stored
outside, the lines that are left are short. -/
theorem lines_lt_of_stored_le {n : Nat} {lines : List (List Char)} (hn : 0 < n)
    (hlength : n < length) (hl : textLines s.stream = lines)
    (hfit : ∀ s', AtHead (readChunk length) s s' → s'.stored ≤ n) :
    ∀ line ∈ lines, line.length < n := by
  induction lines generalizing s with
  | nil => exact List.forall_mem_nil _
  | cons l ls ih =>
      have hone : 1 < length := by omega
      obtain ⟨rest, hf, hrest⟩ := fgets_first_line hone hl
      obtain ⟨s₁, ht, hstream, hstored⟩ := readChunk_of_fgets hf
      have hfit₁ := hfit s₁ (.next .start ht)
      rw [hstored, List.length_take] at hfit₁
      -- The size leaves room for more than the buffer does, so the call has
      -- come to the end of the line, and the next one meets the lines after it.
      have hshort : l.length < n := by omega
      refine List.forall_mem_cons.mpr ⟨hshort, ih (s := s₁) ?_ ?_⟩
      · rw [hstream]
        exact hrest (by omega)
      · exact fun s' h' => hfit s' (h'.head ht)

/-- What the loop copies of a file, all in all: each chunk up to its first
NUL. -/
def copies (length : Int) (file : List Char) : List Char :=
  (chunks (length - 1).toNat file).flatMap fun line =>
    (CString.ofBuffer (line ++ [nul])).chars

/-- What is copied and what is still to be copied does not change. -/
theorem readChunk_copies (h : readChunk length s = some s') :
    s'.copied ++ copies length s'.stream
      = s.copied ++ copies length s.stream := by
  obtain ⟨line, hf, hcopied, -⟩ := readChunk_eq_some h
  rw [hcopied, List.append_assoc, List.append_cancel_left_eq]
  rcases fgets_eq_some hf with ⟨rfl, rfl, hrest⟩ | ⟨hsize, -, -⟩
  · -- The call took nothing, and the calls after it will take nothing.
    rw [copies, copies, show ((1 : Int) - 1).toNat = 0 from rfl, chunks_zero,
      chunks_zero]
    rfl
  · rw [copies, copies, chunks_of_fgets hsize hf, List.flatMap_cons]

theorem copied_append_copies
    (h : AtHead (readChunk length) (.start file) s) :
    s.copied ++ copies length s.stream = copies length file :=
  h.invariant
    (I := fun s => s.copied ++ copies length s.stream = copies length file)
    (fun _ _ hi ht => (readChunk_copies ht).trans hi) rfl

/-- Unless the calls are told to take nothing, all of it is copied in the
end. -/
theorem exists_copied_eq (hlength : 1 < length) (file : List Char) :
    ∃ s, AtHead (readChunk length) (.start file) s
      ∧ s.copied = copies length file := by
  have hprogress : ∀ s s' : ReadState, True → readChunk length s = some s' →
      True ∧ s'.stream.length < s.stream.length := by
    intro s s' _ ht
    obtain ⟨chunk, hread, -⟩ := readChunk_eq_some ht
    exact ⟨trivial, fgets_progress hlength hread⟩
  obtain ⟨s, hw, -, hend⟩ := whileLoop_variant (I := fun _ => True)
    (fun s : ReadState => s.stream.length) hprogress
    (s := .start file) trivial (Nat.lt_succ_self _)
  refine ⟨s, whileLoop_atHead hw, ?_⟩
  have hstream : s.stream = [] := by
    by_contra hne
    have hnone := readChunk_eq_none hend
    rw [fgets_of_one_lt hlength hne] at hnone
    cases hnone
  have happ := copied_append_copies (whileLoop_atHead hw)
  rwa [hstream, copies, chunks_nil, List.flatMap_nil, List.append_nil] at happ

/-- No more is copied than there is. -/
theorem copies_length_le (length : Int) (file : List Char) :
    (copies length file).length ≤ file.length := by
  by_cases hlength : 1 < length
  · obtain ⟨s, hs, hcopied⟩ := exists_copied_eq hlength file
    rw [← hcopied]
    exact copied_length_le hs
  · rw [copies, show (length - 1).toNat = 0 by omega, chunks_zero]
    exact Nat.zero_le _

/-- A state at the head of the loop, in a call that comes to the loop: there is
memory for `json_str`. -/
def Reading (env : FileEnv) (file : List Char) (s : ReadState) : Prop :=
  env.malloc (jsonStrSize file) = true
    ∧ AtHead (readChunk (fileLength file)) (.start file) s

theorem buffers_respected
    (hshort : fileLength file ≤ tempBufSize
      ∨ ∀ line ∈ textLines file, line.length < tempBufSize)
    (hcopies : (copies (fileLength file) file).length ≤ jsonStrSize file)
    (h : AtHead (readChunk (fileLength file)) (.start file) s) :
    s.stored ≤ tempBufSize ∧ s.copied.length ≤ jsonStrSize file := by
  constructor
  · rcases hshort with hfile | hlines
    · exact stored_le_of_length_le hfile h
    · exact stored_le_of_lines_le (m := 254)
        (fun line hl => Nat.le_of_lt_succ (hlines line hl)) h
  · rw [← copied_append_copies h, List.length_append] at hcopies
    omega

theorem copies_length_le_of_lt (hlen : (file.length : Int) < intMax) :
    (copies (fileLength file) file).length ≤ jsonStrSize file := by
  rw [jsonStrSize_of_lt hlen]
  exact Nat.le_succ_of_le (copies_length_le _ file)

/-- What the loop stores stays inside its buffers exactly if the loop is not
come to, for want of memory, or the length that the calls are told is one that
the line buffer has, or each line fits into it, and all that is copied fits into
`json_str`. The length is the one that is kept in an `int`; only where that is
not the length of the file can there be more to copy than there is room for. -/
theorem buffers_respected_iff (env : FileEnv) (file : List Char) :
    ((∀ s, Reading env file s →
        s.stored ≤ tempBufSize ∧ s.copied.length ≤ jsonStrSize file)
      ↔ env.malloc (jsonStrSize file) = false
        ∨ (fileLength file ≤ tempBufSize
            ∨ ∀ line ∈ textLines file, line.length < tempBufSize)
          ∧ (copies (fileLength file) file).length ≤ jsonStrSize file)
    ∧ ((file.length : Int) < intMax →
        (copies (fileLength file) file).length ≤ jsonStrSize file) := by
  refine ⟨⟨fun h => ?_, ?_⟩, copies_length_le_of_lt⟩
  · cases hmalloc : env.malloc (jsonStrSize file) with
    | false => exact .inl rfl
    | true =>
        refine .inr ⟨?_, ?_⟩
        · by_cases hfile : fileLength file ≤ tempBufSize
          · exact .inl hfile
          · exact .inr (lines_lt_of_stored_le (s := .start file) (by decide)
              (by omega) rfl fun s hs => (h s ⟨hmalloc, hs⟩).1)
        · by_cases hlength : 1 < fileLength file
          · obtain ⟨s, hs, hcopied⟩ := exists_copied_eq hlength file
            rw [← hcopied]
            exact (h s ⟨hmalloc, hs⟩).2
          · rw [copies, show (fileLength file - 1).toNat = 0 by omega,
              chunks_zero]
            exact Nat.zero_le _
  · rintro (hmalloc | ⟨hshort, hcopies⟩) s ⟨hgranted, hs⟩
    · rw [hmalloc] at hgranted
      cases hgranted
    · exact buffers_respected hshort hcopies hs

/-- A system with one file, where memory can be had up to a page. -/
def oneFile (file : List Char) : FileEnv where
  fopen _ := some file
  malloc size := decide (size ≤ 4096)
  malloced _ := nul
  malloc_le size h := Nat.le_trans (of_decide_eq_true h) (by decide)

theorem buffers_respected_iff_braces :
    textLines ['{', '\n', '}'] = [['{', '\n'], ['}']] ∧
      ∀ s, Reading (oneFile ['{', '\n', '}']) ['{', '\n', '}'] s →
        s.stored ≤ tempBufSize
          ∧ s.copied.length ≤ jsonStrSize ['{', '\n', '}'] := by
  obtain ⟨hiff, hcopies⟩ :=
    buffers_respected_iff (oneFile ['{', '\n', '}']) ['{', '\n', '}']
  exact ⟨by decide, hiff.mpr (.inr ⟨.inr (by decide), hcopies (by decide)⟩)⟩

/-- One line of 256 characters: the first call is told 256, and stores that
many. -/
theorem long_line_outside_buffer :
    ∃ s, Reading (oneFile (List.replicate 256 'a')) (List.replicate 256 'a') s
      ∧ s.stored = 256 ∧ tempBufSize < s.stored := by
  have hfirst : (readChunk (fileLength (List.replicate 256 'a'))
      (.start (List.replicate 256 'a'))).map ReadState.stored = some 256 := by
    decide +kernel
  obtain ⟨s, ht, hstored⟩ := Option.map_eq_some_iff.mp hfirst
  exact ⟨s, ⟨by decide +kernel, .next .start ht⟩, hstored, hstored ▸ by decide⟩

/-! ## The text -/

theorem jsonStr_of_length {env : FileEnv} {copied : List Char}
    (h : (copied.length : Int) = length) :
    jsonStr env length copied = copied ++ [nul] := by
  subst h
  rw [jsonStr, List.append_left_inj, Int.toNat_natCast]
  refine List.ext_getElem (by simp) fun i _ hi => ?_
  rw [List.getElem_map, List.getElem_range, List.getD_eq_getElem?_getD,
    List.getElem?_eq_getElem hi, Option.getD_some]

theorem jsonStr_length (env : FileEnv) (length : Int) (copied : List Char) :
    (jsonStr env length copied).length = length.toNat + 1 := by
  simp [jsonStr]

/-- Unless the file has one character, the loop ends with all of it copied. -/
theorem whileLoop_readChunk (hone : file.length ≠ 1) (hnul : nul ∉ file) :
    ∃ s, whileLoop (readChunk file.length) (file.length + 1) (.start file) =
      some s
      ∧ s.copied = file ∧ s.stored ≤ file.length := by
  -- What is copied and what is left make up the file, and a turn shortens what
  -- is left.
  have hstep : ∀ s s' : ReadState,
      s.copied ++ s.stream = file ∧ s.stored ≤ file.length →
      readChunk file.length s = some s' →
      (s'.copied ++ s'.stream = file ∧ s'.stored ≤ file.length)
        ∧ s'.stream.length < s.stream.length := by
    rintro s s' ⟨happ, hstored⟩ ht
    have hs : nul ∉ s.stream := fun hmem =>
      hnul (happ ▸ List.mem_append_right _ hmem)
    obtain ⟨line, hf, -, -⟩ := readChunk_eq_some ht
    have hpos := fgets_length_lt hf
    exact ⟨⟨(readChunk_append hs ht).trans happ,
      readChunk_stored_le hstored (Int.le_refl _) ht⟩,
      fgets_progress (by omega) hf⟩
  obtain ⟨s, hw, ⟨happ, hstored⟩, hend⟩ :=
    whileLoop_variant (fun s : ReadState => s.stream.length) hstep
      (s := .start file) ⟨rfl, Nat.zero_le _⟩ (Nat.lt_succ_self file.length)
  refine ⟨s, hw, ?_, hstored⟩
  have hstream : s.stream = [] := by
    by_contra hne
    have hlen := congrArg List.length happ
    rw [List.length_append] at hlen
    have hpos := List.length_pos_iff.mpr hne
    have hnone := readChunk_eq_none hend
    rw [fgets_of_one_lt (by omega) hne] at hnone
    cases hnone
  rwa [hstream, List.append_nil] at happ

/-- A file of one character is never read to its end. -/
theorem whileLoop_readChunk_one (s : ReadState) (limit : Nat) :
    whileLoop (readChunk 1) limit s = none := by
  refine whileLoop_endless (I := fun _ => True) (fun s _ => ?_) trivial limit
  obtain ⟨s', ht, -⟩ := readChunk_of_fgets (fgets_one s.stream)
  exact ⟨s', ht, trivial⟩

section Call

variable {env : FileEnv} {tempBuf limit : Nat} {name : CString}

theorem fwConfigParseFile_of_open (hname : name.chars ≠ [])
    (hopen : env.fopen name = some file)
    (hmalloc : env.malloc (jsonStrSize file) = true) :
    fwConfigParseFile env tempBuf limit (some name)
      = (whileLoop (readChunk (fileLength file)) limit (.start file)).map
          (finishRead env tempBuf file) := by
  simp only [fwConfigParseFile, if_neg hname, hopen, hmalloc, if_true]

/-- A string that is parsed has the length that `file_length` says. -/
theorem finishRead_parse {str : List Char}
    (h : finishRead env tempBuf file s = .parse str) :
    (str.length : Int) = fileLength file + 1 := by
  rw [finishRead] at h
  split at h
  · cases h
  · next hin =>
      rw [ConfigRead.parse.injEq] at h
      rw [← h, jsonStr_length]
      omega

/-- Where memory was found and `file_length` is the length of the file, that
length is below the greatest `int`. -/
theorem length_lt_of_malloc (hmalloc : env.malloc (jsonStrSize file) = true)
    (h : fileLength file = file.length) : (file.length : Int) < intMax := by
  rw [← h]
  refine Int.lt_iff_le_and_ne.mpr ⟨fileLength_le file, fun heq => ?_⟩
  rw [malloc_of_fileLength_eq env heq] at hmalloc
  cases hmalloc

/-- With a line buffer for the whole file, the string that is parsed is the text
of the file exactly if the file does not have one character, nor so many that
they cannot be counted. -/
theorem fwConfigParseFile_text_iff (hname : name.chars ≠ [])
    (hopen : env.fopen name = some file) (hnul : nul ∉ file)
    (hmalloc : env.malloc (jsonStrSize file) = true)
    (htemp : file.length ≤ tempBuf) :
    (∃ limit, fwConfigParseFile env tempBuf limit (some name)
        = some (.parse (file ++ [nul])))
      ↔ file.length ≠ 1 ∧ (file.length : Int) < intMax := by
  simp only [fwConfigParseFile_of_open hname hopen hmalloc]
  constructor
  · rintro ⟨limit, h⟩
    obtain ⟨s, hw, hs⟩ := Option.map_eq_some_iff.mp h
    have hlength : fileLength file = file.length := by
      have hstr := finishRead_parse hs
      rw [List.length_append, List.length_singleton] at hstr
      omega
    refine ⟨fun hone => ?_, length_lt_of_malloc hmalloc hlength⟩
    rw [hlength, hone, Int.natCast_one, whileLoop_readChunk_one] at hw
    cases hw
  · rintro ⟨hone, hlen⟩
    obtain ⟨s, hw, hcopied, hstored⟩ := whileLoop_readChunk hone hnul
    refine ⟨file.length + 1, ?_⟩
    rw [fileLength_of_lt hlen, hw, Option.map_some, finishRead, if_neg, hcopied,
      jsonStr_of_length (fileLength_of_lt hlen).symm]
    rw [hcopied, jsonStrSize_of_lt hlen, fileLength_of_lt hlen]
    omega

end Call

def rulesJson : CString where
  chars := "./nfs/firewall/rules.json".toList
  noNul := by decide

theorem fwConfigParseFile_text_iff_braces :
    ∃ limit, fwConfigParseFile (oneFile ['{', '}']) tempBufSize limit
      (some rulesJson)
      = some (.parse (['{', '}'] ++ [nul])) :=
  (fwConfigParseFile_text_iff (by decide) rfl (by decide)
    (by decide) (by decide)).mpr ⟨by decide, by decide⟩

/-- Of a file with one character, no call takes anything. -/
theorem one_character_never_read :
    ¬ ∃ limit outcome,
      fwConfigParseFile (oneFile ['0']) tempBufSize limit (some rulesJson)
        = some outcome := by
  rintro ⟨limit, outcome, h⟩
  rw [fwConfigParseFile_of_open (by decide) rfl (by decide)] at h
  obtain ⟨s, hw, -⟩ := Option.map_eq_some_iff.mp h
  rw [show fileLength ['0'] = 1 from rfl, whileLoop_readChunk_one] at hw
  cases hw

end ConfigFile

end GhostDataplane.Engine
