import FieldShader.Number.Single
import FieldShader.Number.Shortest

/-!
# How a number is written

A decimal is written positionally, padded with zeros to the point and with at least one digit on
either side of it, or in scientific notation with one digit before the point and a signed
exponent. A `NumberStyle` fixes for which decimal exponents the positional form is used and how a
tie between two shortest decimals is decided. The library has three styles: literals of the
shading language are positional throughout, and numbers of JSON texts switch to the scientific
form outside a window that depends on the format of the number.
-/

namespace FieldShader

namespace Decimal

/-- The digits as characters, without a sign. -/
def chars (d : Decimal) : List Char := Nat.toDigits 10 d.digits

/-- The decimal exponent of the first digit. -/
def leading (d : Decimal) : Int := (d.chars.length : Int) - 1 + d.exponent

/-- The positional form: the whole digits, a point, and at least one digit after it. -/
def positional (d : Decimal) : List Char :=
  let places := (-d.exponent).toNat
  if places = 0 then d.chars ++ List.replicate d.exponent.toNat '0' ++ ['.', '0']
  else if places < d.chars.length then
    d.chars.take (d.chars.length - places) ++ '.' :: d.chars.drop (d.chars.length - places)
  else '0' :: '.' :: (List.replicate (places - d.chars.length) '0' ++ d.chars)

/-- The scientific form: one digit, the other digits after a point if there are any, and the
exponent with its sign. -/
def scientific (d : Decimal) : List Char :=
  let fraction := if d.chars.length = 1 then [] else '.' :: d.chars.drop 1
  let sign := if d.leading < 0 then '-' else '+'
  d.chars.take 1 ++ fraction ++ 'e' :: sign :: Nat.toDigits 10 d.leading.natAbs

end Decimal

/-- The decisions of a number text. -/
structure NumberStyle where
  /-- The decimal exponents of the first digit that are written positionally; every exponent
  when absent. -/
  window : Option (Int × Int)
  /-- How a tie between two shortest decimals is decided. -/
  tie : Tie

namespace NumberStyle

/-- Literals of the shading language: always positional, a tie goes up. -/
def literal : NumberStyle := ⟨none, .up⟩

/-- Single-precision numbers of a JSON text: positional from `1e-6` to below `1e13`. -/
def jsonSingle : NumberStyle := ⟨some (-6, 12), .even⟩

/-- Double-precision numbers of a JSON text: positional from `1e-5` to below `1e16`. -/
def jsonDouble : NumberStyle := ⟨some (-5, 15), .even⟩

/-- Whether a decimal is written positionally. -/
def isPositional (s : NumberStyle) (d : Decimal) : Bool :=
  match s.window with
  | none => true
  | some (first, last) => first ≤ d.leading && d.leading ≤ last

/-- The text of a signed magnitude of the format. -/
def write (s : NumberStyle) (f : BinaryFormat) (negative : Bool) (x : Magnitude) : List Char :=
  let d := f.shortest s.tie x
  (if negative then ['-'] else []) ++ (if s.isPositional d then d.positional else d.scientific)

end NumberStyle

namespace Single

/-- The number as a literal of the shading language. Every text has a point, so that a finite
number is read as a floating-point literal; an infinity and not-a-number have no literal, and
their names are closed in the same way. -/
def literal (x : Single) : String :=
  match x.value with
  | .nan => "NaN.0"
  | .infinite negative => if negative then "-inf.0" else "inf.0"
  | .finite negative m => String.ofList (NumberStyle.literal.write .single negative m)

/-- The number in a JSON text, which has none for an infinity or not-a-number. -/
def json? (x : Single) : Option String :=
  match x.value with
  | .finite negative m => some (String.ofList (NumberStyle.jsonSingle.write .single negative m))
  | _ => none

/-- The two notations at both ends of the window and at a signed zero. -/
example : (ofRatio false 1 (10 ^ 7)).literal = "0.0000001" ∧
    (ofRatio false 1 (10 ^ 7)).json? = some "1e-7" ∧
    (ofRatio false 1 (10 ^ 6)).json? = some "0.000001" ∧
    (ofRatio false (10 ^ 12) 1).json? = some "1000000000000.0" ∧
    (ofRatio true (15 * 10 ^ 12) 1).json? = some "-1.5e+13" ∧
    (ofRatio true 0 1).literal = "-0.0" ∧ (ofRatio false (2 ^ 128) 1).json? = none := by
  decide +kernel

end Single

end FieldShader
