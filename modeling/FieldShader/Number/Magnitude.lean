/-!
# Magnitudes and the formats that round to them

A `Magnitude` is a non-negative number `significand · 2 ^ exponent`. A `BinaryFormat` keeps
`precision` significant bits and no bit below its least exponent; `BinaryFormat.round` takes a
ratio of naturals to the nearest magnitude of the format, an exact tie to the even significand,
and has no answer for a ratio that rounds past the greatest one. Everything is exact arithmetic
on naturals, so a printed digit or a narrowed number can be reasoned about. The two formats in
use are `BinaryFormat.single`, the numbers of a scene, and `BinaryFormat.double`, the numbers a
JSON text is read through. Powers are `Nat.pow`, which `Nat.pow_eq` turns into `^`.
-/

namespace FieldShader

/-- The non-negative number `significand · 2 ^ exponent`. -/
structure Magnitude where
  /-- The integer that is scaled. -/
  significand : Nat
  /-- The power of two it is scaled by. -/
  exponent : Int
deriving DecidableEq

namespace Magnitude

/-- Numerator of the magnitude as a ratio of naturals. -/
def num (x : Magnitude) : Nat := x.significand * Nat.pow 2 x.exponent.toNat

/-- Denominator of the magnitude as a ratio of naturals: a power of two. -/
def den (x : Magnitude) : Nat := Nat.pow 2 (-x.exponent).toNat

/-- The denominator of a magnitude is positive. -/
theorem den_pos (x : Magnitude) : 0 < x.den := Nat.two_pow_pos _

end Magnitude

/-- A binary floating-point format. -/
structure BinaryFormat where
  /-- Number of significant bits. -/
  precision : Nat
  /-- Exponent of the least positive magnitude. -/
  least : Int
  /-- Greatest exponent a magnitude of full precision may have. -/
  greatest : Int

/-- Nearest natural to `num / den`, an exact half going to the even neighbour. -/
def roundHalfEven (num den : Nat) : Nat :=
  let below := num / den
  let rest := num % den
  if 2 * rest < den then below
  else if den < 2 * rest then below + 1
  else below + below % 2

/-- The exponent `e` with `2 ^ e ≤ num / den < 2 ^ (e + 1)`, for a positive ratio. -/
def binade (num den : Nat) : Int :=
  let guess : Int := (num.log2 : Int) - (den.log2 : Int)
  if den * Nat.pow 2 guess.toNat ≤ num * Nat.pow 2 (-guess).toNat then guess else guess - 1

namespace BinaryFormat

/-- The numbers of a scene: 24 significant bits, the least positive one `2 ^ -149`. -/
def single : BinaryFormat := ⟨24, -149, 104⟩

/-- The numbers a JSON text is read through: 53 significant bits, the least one `2 ^ -1074`. -/
def double : BinaryFormat := ⟨53, -1074, 971⟩

/-- The magnitude of the format nearest to `num / den`, or none when that is past the greatest
one. The exponent leaves `precision` bits before the point, or is the least one where the ratio
is too small for that; rounding up to the next power of two moves to the next exponent. -/
def round (f : BinaryFormat) (num den : Nat) : Option Magnitude :=
  if num = 0 then some ⟨0, f.least⟩
  else
    let exponent := max (binade num den - (f.precision - 1 : Nat)) f.least
    let significand :=
      roundHalfEven (num * Nat.pow 2 (-exponent).toNat) (den * Nat.pow 2 exponent.toNat)
    let rounded : Magnitude :=
      if significand = Nat.pow 2 f.precision then ⟨Nat.pow 2 (f.precision - 1), exponent + 1⟩
      else ⟨significand, exponent⟩
    if f.greatest < rounded.exponent then none else some rounded

/-- The product of two magnitudes in the format. -/
def mul (f : BinaryFormat) (x y : Magnitude) : Option Magnitude :=
  f.round (x.num * y.num) (x.den * y.den)

/-- The quotient of two magnitudes in the format, for a positive divisor. -/
def div (f : BinaryFormat) (x y : Magnitude) : Option Magnitude :=
  f.round (x.num * y.den) (x.den * y.num)

/-- Zero is a magnitude of every format. -/
theorem round_zero (f : BinaryFormat) (den : Nat) : f.round 0 den = some ⟨0, f.least⟩ := rfl

/-- One half and one third in single precision; the greatest finite value plus half a step
rounds out of the format. -/
example : single.round 1 2 = some ⟨2 ^ 23, -24⟩ ∧ single.round 1 3 = some ⟨11184811, -25⟩ ∧
    single.round (2 ^ 128 - 2 ^ 103) 1 = none ∧
    single.round (2 ^ 128 - 2 ^ 103 - 1) 1 = some ⟨2 ^ 24 - 1, 104⟩ := by decide

end BinaryFormat

end FieldShader
