import GhostDataplane.Lib.Text

/-!
# Reading a stream line by line

`fgets` takes characters off a stream up to the end of a line, but no more
than fit into the buffer; with the terminator it stores one more than it took.
A buffer of one character takes nothing and is not the end of the stream, a
buffer of none is like the end of the stream: this is what glibc does, and
what the standard leaves open.

How much one call takes depends on the lines of the text, which `textLines`
lists with the newline at the end of each. A call takes the first of them, or
as much of it as fits. `chunks` lists what one call after the other takes.
-/

namespace GhostDataplane.Lib

/-- The characters up to the end of the line, but at most `n`, and the rest. -/
def takeLine : Nat → List Char → List Char × List Char
  | 0, s => ([], s)
  | _ + 1, [] => ([], [])
  | n + 1, c :: s =>
      if c = '\n' then ([c], s)
      else (c :: (takeLine n s).1, (takeLine n s).2)

/-- `fgets`: what it puts before the terminator, and what is left of the
stream; nothing if it returns NULL. -/
def fgets (size : Int) (stream : List Char) : Option (List Char × List Char) :=
  if size ≤ 0 then none
  else if size = 1 then some ([], stream)
  else if stream.isEmpty then none
  else some (takeLine (size - 1).toNat stream)

/-- The lines of a text. -/
def textLines : List Char → List (List Char)
  | [] => []
  | c :: s =>
      if c = '\n' then [c] :: textLines s
      else
        match textLines s with
        | [] => [[c]]
        | line :: lines => (c :: line) :: lines

/-! ## One line -/

theorem takeLine_append (n : Nat) (s : List Char) :
    (takeLine n s).1 ++ (takeLine n s).2 = s := by
  induction s generalizing n with
  | nil => cases n <;> rfl
  | cons c s ih =>
      cases n with
      | zero => rfl
      | succ n =>
          rw [takeLine]
          split
          · rfl
          · rw [List.cons_append, ih]

theorem takeLine_length_le (n : Nat) (s : List Char) :
    (takeLine n s).1.length ≤ n := by
  induction s generalizing n with
  | nil => cases n <;> simp [takeLine]
  | cons c s ih =>
      cases n with
      | zero => simp [takeLine]
      | succ n =>
          rw [takeLine]
          split
          · simp
          · exact Nat.succ_le_succ (ih n)

theorem takeLine_pos {n : Nat} {s : List Char} (hn : 0 < n) (hs : s ≠ []) :
    0 < (takeLine n s).1.length := by
  obtain ⟨n, rfl⟩ := Nat.exists_eq_succ_of_ne_zero (Nat.ne_of_gt hn)
  cases s with
  | nil => exact absurd rfl hs
  | cons c s =>
      rw [takeLine]
      split <;> simp

theorem textLines_ne_nil {s : List Char} (hs : s ≠ []) : textLines s ≠ [] := by
  cases s with
  | nil => exact absurd rfl hs
  | cons c s =>
      rw [textLines]
      split
      · simp
      · split <;> simp

/-- The first line of a text ends with its first character, or goes on. -/
theorem textLines_cons {c : Char} {s line : List Char}
    {lines : List (List Char)} (h : textLines (c :: s) = line :: lines) :
    (c = '\n' ∧ line = [c] ∧ lines = textLines s)
      ∨ (c ≠ '\n' ∧ s = [] ∧ line = [c] ∧ lines = [])
      ∨ (c ≠ '\n' ∧ ∃ l, textLines s = l :: lines ∧ line = c :: l) := by
  rw [textLines] at h
  split at h
  · next hc =>
      cases h
      exact .inl ⟨hc, rfl, rfl⟩
  · next hc =>
      split at h
      · next hnil =>
          cases h
          refine .inr (.inl ⟨hc, ?_, rfl, rfl⟩)
          by_contra hs
          exact textLines_ne_nil hs hnil
      · next l ls hcons =>
          cases h
          exact .inr (.inr ⟨hc, l, hcons, rfl⟩)

/-- What is taken is the first line, or as much of it as there is room for. -/
theorem takeLine_fst {n : Nat} {s line : List Char} {lines : List (List Char)}
    (h : textLines s = line :: lines) : (takeLine n s).1 = line.take n := by
  induction s generalizing n line with
  | nil => cases h
  | cons c s ih =>
      cases n with
      | zero => rw [takeLine, List.take_zero]
      | succ n =>
          rw [takeLine]
          rcases textLines_cons h with
            ⟨hc, rfl, -⟩ | ⟨hc, rfl, rfl, -⟩ | ⟨hc, l, hl, rfl⟩
          · simp [hc]
          · rw [if_neg hc]
            cases n <;> rfl
          · rw [if_neg hc, ih hl, List.take_succ_cons]

/-- What calls with room for `n` characters take, one after the other. -/
def chunks (n : Nat) (s : List Char) : List (List Char) :=
  if _h : 0 < n ∧ s ≠ [] then
    (takeLine n s).1 :: chunks n (takeLine n s).2
  else []
termination_by s.length
decreasing_by
  have hparts := congrArg List.length (takeLine_append n s)
  have hpos := takeLine_pos _h.1 _h.2
  rw [List.length_append] at hparts
  omega

theorem chunks_nil (n : Nat) : chunks n [] = [] := by
  rw [chunks, dif_neg fun h => h.2 rfl]

theorem chunks_zero (s : List Char) : chunks 0 s = [] := by
  rw [chunks, dif_neg fun h => Nat.lt_irrefl 0 h.1]

/-- If there is room for the first line, the others are left. -/
theorem textLines_takeLine {n : Nat} {s line : List Char}
    {lines : List (List Char)} (h : textLines s = line :: lines)
    (hn : line.length ≤ n) : textLines (takeLine n s).2 = lines := by
  induction s generalizing n line with
  | nil => cases h
  | cons c s ih =>
      rcases textLines_cons h with
        ⟨hc, rfl, rfl⟩ | ⟨hc, rfl, rfl, rfl⟩ | ⟨hc, l, hl, rfl⟩ <;>
        obtain ⟨n, rfl⟩ := Nat.exists_eq_succ_of_ne_zero (n := n)
          (by rintro rfl; cases hn) <;>
        rw [takeLine]
      · rw [if_pos hc]
      · rw [if_neg hc]
        cases n <;> rfl
      · rw [if_neg hc]
        exact ih hl (Nat.le_of_succ_le_succ hn)

/-- The lines of what is left are no longer than those of the text. -/
theorem textLines_rest {n m : Nat} {s : List Char}
    (h : ∀ line ∈ textLines s, line.length ≤ m) :
    ∀ line ∈ textLines (takeLine n s).2, line.length ≤ m := by
  induction s generalizing n with
  | nil => cases n <;> exact h
  | cons c s ih =>
      cases n with
      | zero => exact h
      | succ n =>
          rw [takeLine]
          rw [textLines] at h
          split at h
          · next hc =>
              rw [if_pos hc]
              exact fun line hl => h line (List.mem_cons_of_mem _ hl)
          · next hc =>
              rw [if_neg hc]
              refine ih fun line hl => ?_
              split at h
              · next hnil =>
                  rw [hnil] at hl
                  cases hl
              · next l ls hcons =>
                  rw [hcons] at hl
                  rcases List.mem_cons.mp hl with rfl | hl
                  · exact Nat.le_of_succ_le (h (c :: line) List.mem_cons_self)
                  · exact h line (List.mem_cons_of_mem _ hl)

/-! ## One call -/

section Fgets

variable {size : Int} {stream line rest : List Char}

/-- A call that returns a line has room for the terminator only, or takes a line
off a stream that has one. -/
theorem fgets_eq_some (h : fgets size stream = some (line, rest)) :
    (size = 1 ∧ line = [] ∧ rest = stream)
      ∨ (1 < size ∧ stream ≠ [] ∧
        takeLine (size - 1).toNat stream = (line, rest)) := by
  rw [fgets] at h
  split at h
  · cases h
  · split at h
    · next hone =>
        cases h
        exact .inl ⟨hone, rfl, rfl⟩
    · split at h
      · cases h
      · next hs =>
          exact .inr ⟨by omega, by simpa using hs, Option.some.inj h⟩

theorem fgets_append (h : fgets size stream = some (line, rest)) :
    line ++ rest = stream := by
  rcases fgets_eq_some h with ⟨-, rfl, rfl⟩ | ⟨-, -, htake⟩
  · rfl
  · have hparts := takeLine_append (size - 1).toNat stream
    rwa [htake] at hparts

/-- There is room for the terminator. -/
theorem fgets_length_lt (h : fgets size stream = some (line, rest)) :
    (line.length : Int) < size := by
  rcases fgets_eq_some h with ⟨rfl, rfl, -⟩ | ⟨hsize, -, htake⟩
  · decide
  · have hle := takeLine_length_le (size - 1).toNat stream
    rw [htake] at hle
    dsimp only at hle
    omega

theorem fgets_of_one_lt (hsize : 1 < size) (hs : stream ≠ []) :
    fgets size stream = some (takeLine (size - 1).toNat stream) := by
  rw [fgets, if_neg (by omega), if_neg (by omega),
    if_neg (by simpa using hs)]

theorem fgets_one (stream : List Char) :
    fgets 1 stream = some ([], stream) := rfl

/-- With room for more than the terminator, the stream gets shorter. -/
theorem fgets_progress (hsize : 1 < size)
    (h : fgets size stream = some (line, rest)) :
    rest.length < stream.length := by
  have happ := congrArg List.length (fgets_append h)
  rw [List.length_append] at happ
  rcases fgets_eq_some h with ⟨hone, -, -⟩ | ⟨-, hs, htake⟩
  · omega
  · have hpos := takeLine_pos (n := (size - 1).toNat) (by omega) hs
    rw [htake] at hpos
    dsimp only at hpos
    omega

/-- What the calls take is what this call takes, and then what the next ones
take. -/
theorem chunks_of_fgets (hsize : 1 < size)
    (h : fgets size stream = some (line, rest)) :
    chunks (size - 1).toNat stream =
      line :: chunks (size - 1).toNat rest := by
  rcases fgets_eq_some h with ⟨hone, -, -⟩ | ⟨-, hs, htake⟩
  · omega
  · rw [chunks, dif_pos ⟨by omega, hs⟩, htake]

/-- What is taken, and the lines of what is left, are no longer than the lines
of the stream. -/
theorem fgets_lines_le {m : Nat} (h : fgets size stream = some (line, rest))
    (hlines : ∀ l ∈ textLines stream, l.length ≤ m) :
    line.length ≤ m ∧ ∀ l ∈ textLines rest, l.length ≤ m := by
  rcases fgets_eq_some h with ⟨-, rfl, rfl⟩ | ⟨-, hs, htake⟩
  · exact ⟨Nat.zero_le _, hlines⟩
  · obtain ⟨l, ls, hl⟩ := List.exists_cons_of_ne_nil (textLines_ne_nil hs)
    have hline := takeLine_fst (n := (size - 1).toNat) hl
    have hrest := textLines_rest (n := (size - 1).toNat) hlines
    rw [htake] at hline hrest
    refine ⟨?_, hrest⟩
    calc line.length
      _ = (l.take (size - 1).toNat).length := congrArg List.length hline
      _ ≤ l.length := List.length_take_le' _ _
      _ ≤ m := hlines l (by rw [hl]; exact List.mem_cons_self)

/-- A call takes the first line as far as there is room; if there is room for
all of it, the other lines are left. -/
theorem fgets_first_line {l : List Char} {ls : List (List Char)}
    (hsize : 1 < size) (hl : textLines stream = l :: ls) :
    ∃ rest, fgets size stream = some (l.take (size - 1).toNat, rest)
      ∧ (l.length ≤ (size - 1).toNat → textLines rest = ls) := by
  have hs : stream ≠ [] := by
    rintro rfl
    cases hl
  refine ⟨(takeLine (size - 1).toNat stream).2, ?_, textLines_takeLine hl⟩
  rw [fgets_of_one_lt hsize hs, ← takeLine_fst hl]

end Fgets

end GhostDataplane.Lib
