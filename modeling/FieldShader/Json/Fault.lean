import FieldShader.Number.Notation
import FieldShader.Text.Quoted

/-!
# Faults of JSON texts

A JSON text is refused for its syntax, for a number or a text that has no value, or because a value
is not what its place asks for. `Fault` lists the causes; `Fault.message` is the wording.
-/

namespace FieldShader

/-- A number of a JSON text: an integer of 64 bits, or a double. A double keeps its sign, so that
minus zero is one. -/
inductive JsonNumber where
  | integer (value : Int)
  | double (negative : Bool) (magnitude : Magnitude)
deriving DecidableEq

namespace JsonNumber

/-- The single-precision number nearest to the number. -/
def toSingle : JsonNumber → Single
  | .integer n => .ofRatio (n < 0) n.natAbs 1
  | .double negative m => .ofMagnitude negative m

end JsonNumber

/-- The kind of a value that was found where another was asked for. -/
inductive Found where
  | null
  | bool (b : Bool)
  | number (n : JsonNumber)
  | text (s : String)
  | sequence
  | map
  /-- A bare word where a variant with contents is asked for. -/
  | unitVariant
deriving DecidableEq

namespace Found

/-- The kind of the value as words of a message. -/
def describe : Found → String
  | .null => "null"
  | .bool b => "boolean `" ++ (if b then "true" else "false") ++ "`"
  | .number (.integer n) => "integer `" ++ toString n ++ "`"
  | .number (.double negative m) =>
    "floating point `" ++ String.ofList (NumberStyle.jsonDouble.write .double negative m) ++ "`"
  | .text s => "string " ++ quoted s
  | .sequence => "sequence"
  | .map => "map"
  | .unitVariant => "unit variant"

end Found

/-- Why a JSON text is refused. -/
inductive Fault where
  /-- The text ends inside a value. -/
  | endOfValue
  /-- The text ends inside an array, between elements. -/
  | endOfList
  /-- The text ends inside an object, between members. -/
  | endOfObject
  /-- The text ends inside a string. -/
  | endOfText
  /-- No value starts here. -/
  | expectedValue
  /-- A word that starts like a literal is none. -/
  | expectedLiteral
  | expectedColon
  | expectedListEnd
  | expectedObjectEnd
  | expectedKey
  | trailingComma
  /-- Something follows the value. -/
  | trailingCharacters
  | invalidNumber
  | numberOutOfRange
  | controlCharacter
  | invalidEscape
  /-- An escape names a low surrogate that follows no high one, or a high one is followed by an
  escape of something else. -/
  | loneSurrogate
  /-- An escape of a high surrogate is followed by no further escape. -/
  | unfinishedSurrogate
  /-- A string is not well-formed UTF-8. -/
  | invalidCodePoint
  /-- Too many arrays and objects inside each other. -/
  | tooDeep
  | invalidType (found : Found) (expected : String)
  | invalidLength (length : Nat) (expected : String)
  | invalidIndex (index bound : Nat)
  | unknownVariant (name : String) (choices : List String)
  | missingField (name : String)
  | duplicateField (name : String)
  /-- No form of the named value fits. -/
  | noForm (name : String)
deriving DecidableEq

namespace Fault

/-- A word between backquotes. -/
def code (s : String) : String := "`" ++ s ++ "`"

/-- The words from which one has to be chosen, at least one of them. -/
def choice : List String → String
  | [] => "there are no variants"
  | [only] => "expected " ++ code only
  | [first, second] => "expected " ++ code first ++ " or " ++ code second
  | many => "expected one of " ++ String.intercalate ", " (many.map code)

/-- The fault as a message. -/
def message : Fault → String
  | .endOfValue => "EOF while parsing a value"
  | .endOfList => "EOF while parsing a list"
  | .endOfObject => "EOF while parsing an object"
  | .endOfText => "EOF while parsing a string"
  | .expectedValue => "expected value"
  | .expectedLiteral => "expected ident"
  | .expectedColon => "expected `:`"
  | .expectedListEnd => "expected `,` or `]`"
  | .expectedObjectEnd => "expected `,` or `\x7d`"
  | .expectedKey => "key must be a string"
  | .trailingComma => "trailing comma"
  | .trailingCharacters => "trailing characters"
  | .invalidNumber => "invalid number"
  | .numberOutOfRange => "number out of range"
  | .controlCharacter => "control character (\\u0000-\\u001F) found while parsing a string"
  | .invalidEscape => "invalid escape"
  | .loneSurrogate => "lone leading surrogate in hex escape"
  | .unfinishedSurrogate => "unexpected end of hex escape"
  | .invalidCodePoint => "invalid unicode code point"
  | .tooDeep => "recursion limit exceeded"
  | .invalidType found expected =>
    "invalid type: " ++ found.describe ++ ", expected " ++ expected
  | .invalidLength length expected =>
    "invalid length " ++ toString length ++ ", expected " ++ expected
  | .invalidIndex index bound =>
    "invalid value: integer " ++ code (toString index) ++
      ", expected variant index 0 <= i < " ++ toString bound
  | .unknownVariant name choices => "unknown variant " ++ code name ++ ", " ++ choice choices
  | .missingField name => "missing field " ++ code name
  | .duplicateField name => "duplicate field " ++ code name
  | .noForm name => "data did not match any variant of untagged enum " ++ name

end Fault

end FieldShader
