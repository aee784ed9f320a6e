/-!
# Lines of a text

A text is a sequence of lines separated by line feeds, of which there is always at least one; a
text that ends with a line feed has an empty last line. Splitting a text and joining its lines are
inverse to each other: `joinLines_splitLines` holds of every text, `splitLines_joinLines` of every
list of lines that is not empty and in which no line holds a line feed. What is said of lines one by
one holds of the `pieces` between any separators.
-/

namespace FieldShader

/-- The pieces of a text between its separators. -/
def pieces (separator : Char) : List Char → List (List Char)
  | [] => [[]]
  | c :: rest =>
    if c = separator then [] :: pieces separator rest
    else
      match pieces separator rest with
      | [] => [[c]]
      | piece :: more => (c :: piece) :: more

/-- The lines of a text. -/
def splitLines (s : List Char) : List (List Char) := pieces '\n' s

/-- The text with the given lines. -/
def joinLines : List (List Char) → List Char
  | [] => []
  | [line] => line
  | line :: next :: lines => line ++ '\n' :: joinLines (next :: lines)

/-- A text has at least one piece. -/
theorem pieces_ne_nil (separator : Char) (s : List Char) : pieces separator s ≠ [] := by
  cases s with
  | nil => simp [pieces]
  | cons c rest =>
    rw [pieces]
    split
    · simp
    · split <;> simp

/-- A text has at least one line. -/
theorem splitLines_ne_nil (s : List Char) : splitLines s ≠ [] := pieces_ne_nil '\n' s

/-- Joining the lines of a text gives the text. -/
theorem joinLines_splitLines (s : List Char) : joinLines (splitLines s) = s := by
  unfold splitLines
  induction s with
  | nil => rfl
  | cons c rest ih =>
    rw [pieces]
    obtain ⟨line, lines, h⟩ := List.exists_cons_of_ne_nil (pieces_ne_nil '\n' rest)
    rw [h] at ih ⊢
    split
    · simp [joinLines, *]
    · cases lines with
      | nil => simpa [joinLines] using ih
      | cons next more => simpa [joinLines] using ih

/-- No piece of a text holds the separator. -/
theorem not_mem_of_mem_pieces {separator : Char} {s piece : List Char}
    (h : piece ∈ pieces separator s) : separator ∉ piece := by
  induction s generalizing piece with
  | nil =>
    simp only [pieces, List.mem_singleton] at h
    simp [h]
  | cons c rest ih =>
    rw [pieces] at h
    obtain ⟨first, more, hrest⟩ := List.exists_cons_of_ne_nil (pieces_ne_nil separator rest)
    rw [hrest] at h ih
    split at h
    · rcases List.mem_cons.1 h with rfl | h
      · simp
      · exact ih h
    · rename_i hc
      rcases List.mem_cons.1 h with rfl | h
      · exact List.not_mem_cons_of_ne_of_not_mem (Ne.symm hc) (ih List.mem_cons_self)
      · exact ih (List.mem_cons_of_mem _ h)

/-- No line of a text holds a line feed. -/
theorem not_mem_of_mem_splitLines {s line : List Char} (h : line ∈ splitLines s) : '\n' ∉ line :=
  not_mem_of_mem_pieces h

/-- A text without the separator is one piece. -/
theorem pieces_of_not_mem {separator : Char} {s : List Char} (h : separator ∉ s) :
    pieces separator s = [s] := by
  induction s with
  | nil => rfl
  | cons c rest ih =>
    obtain ⟨hc, hrest⟩ := List.ne_and_not_mem_of_not_mem_cons h
    rw [pieces, if_neg (Ne.symm hc), ih hrest]

/-- A text without a line feed is one line. -/
theorem splitLines_of_not_mem {line : List Char} (h : '\n' ∉ line) : splitLines line = [line] :=
  pieces_of_not_mem h

/-- A separator parts the piece before it from the pieces after it. -/
theorem pieces_append {separator : Char} {piece : List Char} (h : separator ∉ piece)
    (s : List Char) : pieces separator (piece ++ separator :: s) = piece :: pieces separator s := by
  induction piece with
  | nil => simp [pieces]
  | cons c rest ih =>
    obtain ⟨hc, hrest⟩ := List.ne_and_not_mem_of_not_mem_cons h
    rw [List.cons_append, pieces, if_neg (Ne.symm hc), ih hrest]

/-- A line feed separates the lines before it from the lines after it. -/
theorem splitLines_append {line : List Char} (h : '\n' ∉ line) (s : List Char) :
    splitLines (line ++ '\n' :: s) = line :: splitLines s := pieces_append h s

/-- The lines of the text with the given lines. -/
theorem splitLines_joinLines {lines : List (List Char)} (hne : lines ≠ [])
    (h : ∀ line ∈ lines, '\n' ∉ line) : splitLines (joinLines lines) = lines := by
  induction lines with
  | nil => exact absurd rfl hne
  | cons line rest ih =>
    have hline := h line List.mem_cons_self
    cases rest with
    | nil => exact splitLines_of_not_mem hline
    | cons next more =>
      rw [joinLines, splitLines_append hline,
        ih (List.cons_ne_nil _ _) fun l hl => h l (List.mem_cons_of_mem _ hl)]

/-- A line feed at the end starts an empty line. -/
example : splitLines "a\r\n\nb\n".toList = ["a\r".toList, [], "b".toList, []] := by decide

end FieldShader
