/-!
# Character ranges and blanks

A class of characters is given by a list of ranges of code points. `isBlank` is the Unicode property
White_Space, which is what the end of a line is trimmed of.
-/

namespace FieldShader

/-- The code points from the first number to the second, both included. -/
abbrev CodeRange := Nat × Nat

/-- Whether a character is in one of the ranges. -/
def inRanges (ranges : List CodeRange) (c : Char) : Bool :=
  ranges.any fun (first, last) => first ≤ c.toNat && c.toNat ≤ last

/-- Whether the ranges are not empty, in increasing order and disjoint. -/
def rangesSorted : List CodeRange → Bool
  | [] => true
  | [(first, last)] => first ≤ last
  | (first, last) :: (next, end') :: rest =>
    first ≤ last && last < next && rangesSorted ((next, end') :: rest)

/-- Whether no range of the first list meets one of the second. -/
def rangesApart (ranges others : List CodeRange) : Bool :=
  ranges.all fun (first, last) => others.all fun (first', last') => last < first' || last' < first

/-- A character in a range is in no range apart from it. -/
theorem inRanges_eq_false_of_apart {ranges others : List CodeRange} {c : Char}
    (h : rangesApart ranges others = true) (hc : inRanges ranges c = true) :
    inRanges others c = false := by
  simp only [rangesApart, inRanges, List.all_eq_true, List.any_eq_true, Bool.or_eq_true,
    Bool.and_eq_true, decide_eq_true_eq, List.any_eq_false, not_and, Nat.not_le] at h hc ⊢
  obtain ⟨r, hr, hle, hge⟩ := hc
  intro s hs hle'
  rcases h r hr s hs with hlt | hlt <;> omega

/-- The ranges of blanks. -/
def blankRanges : List CodeRange :=
  [(0x9, 0xD), (0x20, 0x20), (0x85, 0x85), (0xA0, 0xA0), (0x1680, 0x1680), (0x2000, 0x200A),
    (0x2028, 0x2029), (0x202F, 0x202F), (0x205F, 0x205F), (0x3000, 0x3000)]

/-- Whether a character is a blank. -/
def isBlank (c : Char) : Bool := inRanges blankRanges c

/-- A text without the blanks at its end. -/
def trimEnd (s : List Char) : List Char := (s.reverse.dropWhile isBlank).reverse

/-- Only the end is trimmed, and a joiner of width zero is no blank. -/
example : trimEnd " a\t\r\u3000".toList = " a".toList ∧
    trimEnd "a\u200b".toList = "a\u200b".toList := by decide

end FieldShader
