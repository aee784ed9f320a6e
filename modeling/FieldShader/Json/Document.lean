import FieldShader.Number.Notation

/-!
# Writing JSON

A `Document` is what the library writes as JSON: numbers are single-precision, and one that is not
finite is written as `null`. There are two layouts. `compact` has no blanks at all; `pretty` puts
every element and member on a line of its own, two blanks deeper than the brackets around it, and a
blank after each colon.
-/

namespace FieldShader

/-- A JSON document to be written. -/
inductive Document where
  | number (value : Single)
  | text (s : String)
  | list (items : List Document)
  | object (members : List (String × Document))

namespace Document

/-- The characters that have a short escape, and the letter of each. -/
def shortEscapes : List (Char × Char) :=
  [('"', '"'), ('\\', '\\'), ('\x08', 'b'), ('\t', 't'), ('\n', 'n'), ('\x0c', 'f'), ('\r', 'r')]

/-- A character inside a string: quotes, backslashes and control characters are escaped. -/
def escapedChar (c : Char) : List Char :=
  match shortEscapes.lookup c with
  | some letter => ['\\', letter]
  | none =>
    if c < ' ' then
      ['\\', 'u', '0', '0', Nat.digitChar (c.toNat / 16), Nat.digitChar (c.toNat % 16)]
    else [c]

/-- A string with its quotes. -/
def textChars (s : String) : List Char := '"' :: (s.toList.flatMap escapedChar ++ ['"'])

/-- A number, or `null`. -/
def numberChars (x : Single) : List Char := (x.json?.getD "null").toList

/-! ## The compact layout -/

mutual

/-- The document without blanks. -/
def compactChars : Document → List Char
  | .number x => numberChars x
  | .text s => textChars s
  | .list items => '[' :: (compactItems items ++ [']'])
  | .object members => '\x7b' :: (compactMembers members ++ ['\x7d'])

/-- The elements of an array with commas between them. -/
def compactItems : List Document → List Char
  | [] => []
  | [d] => d.compactChars
  | d :: ds => d.compactChars ++ ',' :: compactItems ds

/-- The members of an object with commas between them. -/
def compactMembers : List (String × Document) → List Char
  | [] => []
  | [(k, d)] => textChars k ++ ':' :: d.compactChars
  | (k, d) :: rest => textChars k ++ ':' :: (d.compactChars ++ ',' :: compactMembers rest)

end

/-- The document without blanks. -/
def compact (d : Document) : String := String.ofList d.compactChars

/-! ## The pretty layout -/

/-- The start of a line at a depth. -/
def newline (depth : Nat) : List Char := '\n' :: List.replicate (2 * depth) ' '

mutual

/-- The document with every element and member on a line of its own, at a depth. -/
def prettyChars (depth : Nat) : Document → List Char
  | .number x => numberChars x
  | .text s => textChars s
  | .list [] => ['[', ']']
  | .list (d :: ds) => '[' :: (prettyItems (depth + 1) (d :: ds) ++ newline depth ++ [']'])
  | .object [] => ['\x7b', '\x7d']
  | .object (m :: ms) =>
    '\x7b' :: (prettyMembers (depth + 1) (m :: ms) ++ newline depth ++ ['\x7d'])

/-- The lines of the elements of an array. -/
def prettyItems (depth : Nat) : List Document → List Char
  | [] => []
  | [d] => newline depth ++ d.prettyChars depth
  | d :: ds => newline depth ++ d.prettyChars depth ++ ',' :: prettyItems depth ds

/-- The lines of the members of an object. -/
def prettyMembers (depth : Nat) : List (String × Document) → List Char
  | [] => []
  | [(k, d)] => newline depth ++ textChars k ++ ':' :: ' ' :: d.prettyChars depth
  | (k, d) :: rest =>
    newline depth ++ textChars k ++ ':' :: ' ' :: (d.prettyChars depth ++
      ',' :: prettyMembers depth rest)

end

/-- The document with every element and member on a line of its own. -/
def pretty (d : Document) : String := String.ofList (d.prettyChars 0)

/-- The two layouts of one document. -/
example : (Document.object [("a", .list [.number .one, .text "x\n"]), ("b", .list [])]).compact =
      "\x7b\"a\":[1.0,\"x\\n\"],\"b\":[]\x7d" ∧
    (Document.object [("a", .list [.number .one, .text "\x1f"])]).pretty =
      "\x7b\n  \"a\": [\n    1.0,\n    \"\\u001f\"\n  ]\n\x7d" := by decide +kernel

end Document

end FieldShader
