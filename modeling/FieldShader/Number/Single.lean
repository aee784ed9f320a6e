import FieldShader.Number.Magnitude

/-!
# Single-precision numbers

A `Single` is the 32-bit pattern of a number of a scene: one sign bit, eight bits of exponent and
twenty-three bits of significand. `Single.value` reads the pattern as not-a-number, an infinity
or a signed magnitude, and `Single.ofRatio` rounds a signed ratio to a pattern. Equality of
patterns distinguishes the two zeros and two not-a-numbers; `Single.agrees` is the comparison of
numbers, for which the zeros are one and not-a-number differs from itself.
-/

namespace FieldShader

/-- A single-precision number, by its bit pattern. -/
structure Single where
  /-- Sign, exponent and significand, the sign in the highest bit. -/
  bits : BitVec 32
deriving DecidableEq

namespace Single

/-- What a bit pattern stands for. -/
inductive Value where
  | nan
  | infinite (negative : Bool)
  | finite (negative : Bool) (magnitude : Magnitude)
deriving DecidableEq

/-- The number with the given bit pattern. -/
def ofBits (n : Nat) : Single := ⟨BitVec.ofNat 32 n⟩

/-- The weight of the sign bit. -/
def signBit : Nat := 0x80000000

/-- The weight of the lowest bit of the exponent, and of the bit that leads every significand of
full precision. -/
def leadingBit : Nat := 0x800000

/-- Whether the sign bit is set. -/
def negative (x : Single) : Bool := signBit ≤ x.bits.toNat

/-- Reads the pattern. An exponent of zero marks the magnitudes below full precision, the greatest
exponent the infinities and not-a-number; any other adds the leading bit. -/
def value (x : Single) : Value :=
  let exponent : Nat := x.bits.toNat / leadingBit % 256
  let fraction : Nat := x.bits.toNat % leadingBit
  if exponent = 255 then
    if fraction = 0 then .infinite x.negative else .nan
  else if exponent = 0 then .finite x.negative ⟨fraction, -149⟩
  else .finite x.negative ⟨leadingBit + fraction, (exponent : Int) - 150⟩

/-- The pattern of a magnitude of the format, or of an infinity, under a sign. A significand of
full precision carries into the exponent bits, so one sum serves both ranges. -/
def ofMagnitude? (negative : Bool) (magnitude : Option Magnitude) : Single :=
  let sign := if negative then signBit else 0
  match magnitude with
  | none => ofBits (sign + 255 * leadingBit)
  | some m => ofBits (sign + ((m.exponent + 149).toNat * leadingBit + m.significand))

/-- The number nearest to `± num / den`, an infinity when that is out of range. -/
def ofRatio (negative : Bool) (num den : Nat) : Single :=
  ofMagnitude? negative (BinaryFormat.single.round num den)

/-- The number nearest to a signed magnitude of any precision. -/
def ofMagnitude (negative : Bool) (m : Magnitude) : Single := ofRatio negative m.num m.den

/-- Positive zero. -/
def zero : Single := ofBits 0

/-- The number one half. -/
def half : Single := ofBits 0x3f000000

/-- The number one. -/
def one : Single := ofBits 0x3f800000

/-- Whether the number is neither an infinity nor not-a-number. -/
def isFinite (x : Single) : Bool :=
  match x.value with
  | .finite _ _ => true
  | _ => false

/-- Whether the number is a zero of either sign. -/
def isZero (x : Single) : Bool := x.bits.toNat % signBit = 0

/-- Equality of numbers: not-a-number differs from everything, the two zeros are the same. -/
def agrees (x y : Single) : Bool :=
  x.value != .nan && y.value != .nan && (x == y || (x.isZero && y.isZero))

/-- Rounding lands on the familiar patterns, the carry into the least normal number included. -/
example : ofRatio false 1 1 = one ∧ ofRatio true 0 1 = ofBits 0x80000000 ∧
    ofRatio false 1 (2 ^ 149) = ofBits 1 ∧ ofRatio false (2 ^ 24 - 1) (2 ^ 150) = ofBits 0x800000 ∧
    ofRatio true (2 ^ 128) 1 = ofBits 0xff800000 := by decide

end Single

end FieldShader
