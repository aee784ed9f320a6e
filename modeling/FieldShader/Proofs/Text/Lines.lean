import FieldShader.Text.Lines

/-!
# Texts side by side

What splitting and joining do to two texts with a line feed between them: the lines of the whole
are those of the first text followed by those of the second (`splitLines_append_newline`), neither
text having to be a single line or to end in one. A text has one line more than line feeds
(`length_splitLines`), which is how far the second text's lines are moved down. In the other
direction, `joinLines_append` puts the line feed back, and `toList_intercalate_newline` says that
joining is the standard library's `String.intercalate` on the lines as strings.
-/

namespace FieldShader

/-- The pieces of two texts with a separator between them. -/
theorem pieces_append_separator (separator : Char) (s t : List Char) :
    pieces separator (s ++ separator :: t) = pieces separator s ++ pieces separator t := by
  induction s with
  | nil => simp [pieces]
  | cons c rest ih =>
    rw [List.cons_append, pieces, pieces, ih]
    split
    · rfl
    · -- The first piece grows by one character, and it is there in both texts.
      obtain ⟨piece, more, h⟩ := List.exists_cons_of_ne_nil (pieces_ne_nil separator rest)
      rw [h]
      rfl

/-- The lines of two texts with a line feed between them. -/
theorem splitLines_append_newline (s t : List Char) :
    splitLines (s ++ '\n' :: t) = splitLines s ++ splitLines t :=
  pieces_append_separator '\n' s t

/-- A text has one piece more than separators. -/
theorem length_pieces (separator : Char) (s : List Char) :
    (pieces separator s).length = s.count separator + 1 := by
  induction s with
  | nil => rfl
  | cons c rest ih =>
    rw [pieces]
    split
    · rename_i hc
      rw [List.length_cons, ih, hc, List.count_cons_self]
    · rename_i hc
      obtain ⟨piece, more, h⟩ := List.exists_cons_of_ne_nil (pieces_ne_nil separator rest)
      have hlen : (pieces separator rest).length = more.length + 1 := by rw [h, List.length_cons]
      rw [h, List.count_cons_of_ne hc, List.length_cons]
      omega

/-- A text has one line more than line feeds. -/
theorem length_splitLines (s : List Char) : (splitLines s).length = s.count '\n' + 1 :=
  length_pieces '\n' s

/-- The text of two sequences of lines, neither of which is empty. -/
theorem joinLines_append {lines more : List (List Char)} (h : lines ≠ []) (h' : more ≠ []) :
    joinLines (lines ++ more) = joinLines lines ++ '\n' :: joinLines more := by
  induction lines with
  | nil => exact absurd rfl h
  | cons line rest ih =>
    cases rest with
    | nil =>
      obtain ⟨next, others, rfl⟩ := List.exists_cons_of_ne_nil h'
      rfl
    | cons next others =>
      have hrest := ih (List.cons_ne_nil _ _)
      rw [List.cons_append] at hrest
      rw [List.cons_append, List.cons_append, joinLines, joinLines, hrest]
      simp

/-- Joining lines is what the standard library calls intercalating. -/
theorem toList_intercalate_newline (lines : List String) :
    ("\n".intercalate lines).toList = joinLines (lines.map String.toList) := by
  induction lines with
  | nil => rfl
  | cons line rest ih =>
    cases rest with
    | nil => simp [joinLines]
    | cons next others =>
      rw [String.intercalate_cons_cons, String.toList_append, String.toList_append, ih]
      simp [joinLines]

end FieldShader
