import FieldShader.Text.Word

/-!
# Directives

A line of a template is a directive when it consists of tabs, the word `#evaluate`, one space and a
word, and nothing after that but blanks. The number of tabs is the depth of the lines that replace
it, and the word is a tag, known or not.
-/

namespace FieldShader

/-- A directive of a template. -/
structure Directive where
  /-- The number of tabs before it. -/
  depth : Nat
  /-- The word after it. -/
  tag : List Char
deriving DecidableEq

namespace Directive

/-- What stands between the tabs and the tag. -/
def keyword : List Char := "#evaluate ".toList

/-- The directive that a line is, without the blanks at its end. -/
def ofTrimmed? (line : List Char) : Option Directive :=
  let body := line.dropWhile (· = '\t')
  if keyword.isPrefixOf body then
    let tag := body.drop keyword.length
    if tag ≠ [] ∧ tag.all isWord then some ⟨(line.takeWhile (· = '\t')).length, tag⟩ else none
  else none

/-- The directive that a line is. -/
def ofLine? (line : List Char) : Option Directive := ofTrimmed? (trimEnd line)

/-- Tabs go before and blanks after; a space before, a second word or a missing one are no part of a
directive. -/
example : ofLine? "\t\t#evaluate sdf \r".toList = some ⟨2, "sdf".toList⟩ ∧
    ofLine? " #evaluate sdf".toList = none ∧ ofLine? "#evaluate sdf normal".toList = none ∧
    ofLine? "#evaluate ".toList = none := by decide +kernel

end Directive

end FieldShader
