/-!
# Listings

A listing is the text of a shader while it is written: complete lines and the depth at which the
next one is indented, one tab per level. Writing appends and keeps the depth (`lines_writeAll`).
-/

namespace FieldShader

/-- A line at a depth of indentation. -/
def indent (depth : Nat) (line : String) : String :=
  String.ofList (List.replicate depth '\t') ++ line

/-- Lines of text with a current depth. -/
structure Listing where
  /-- The lines written so far. -/
  lines : List String
  /-- The depth of the next line. -/
  depth : Nat
deriving DecidableEq

namespace Listing

/-- Nothing is written yet. -/
def empty : Listing := ⟨[], 0⟩

/-- Writes one line at the current depth. -/
def write (l : Listing) (line : String) : Listing :=
  { l with lines := l.lines ++ [indent l.depth line] }

/-- Writes one line exactly as given. -/
def writeVerbatim (l : Listing) (line : String) : Listing :=
  { l with lines := l.lines ++ [line] }

/-- Writes several lines at the current depth. -/
def writeAll (l : Listing) (lines : List String) : Listing := lines.foldl write l

/-- Appends a text to every line from the given index on. -/
def terminateSince (l : Listing) (start : Nat) (ending : String) : Listing :=
  { l with lines := l.lines.take start ++ (l.lines.drop start).map (· ++ ending) }

/-- Goes deeper. -/
def pushIndent (l : Listing) (n : Nat) : Listing := { l with depth := l.depth + n }

/-- Comes back up, to depth zero at most. -/
def popIndent (l : Listing) (n : Nat) : Listing := { l with depth := l.depth - n }

@[simp] theorem depth_writeAll (l : Listing) (lines : List String) :
    (l.writeAll lines).depth = l.depth := by
  induction lines generalizing l with
  | nil => rfl
  | cons line rest ih => exact ih (l.write line)

/-- Lines are written at one depth, after the lines that are there. -/
@[simp] theorem lines_writeAll (l : Listing) (lines : List String) :
    (l.writeAll lines).lines = l.lines ++ lines.map (indent l.depth) := by
  induction lines generalizing l with
  | nil => simp [writeAll]
  | cons line rest ih =>
    have h : (l.writeAll (line :: rest)).lines = ((l.write line).writeAll rest).lines := rfl
    rw [h, ih (l.write line)]
    simp [write]

/-- Lines keep the depth at which they were written. -/
example : ((((empty.write "a").pushIndent 2).write "b").popIndent 5).writeVerbatim "\tc" =
    ⟨["a", "\t\tb", "\tc"], 0⟩ := by decide

end Listing

end FieldShader
