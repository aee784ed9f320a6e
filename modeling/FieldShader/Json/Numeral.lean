import FieldShader.Json.Fault

/-!
# Numerals

A numeral of a JSON text is a sign, whole digits, and optional digits after the point and in the
exponent. An integer that fits 64 bits is taken as it is. Any other numeral is read into a double in
three rounded steps: the leading digits that fit 64 bits are rounded to a double, the power of ten
they are scaled by is another double, and the two are multiplied or divided. Digits past the
significand only move the point, and the result may so differ from the nearest double in its last
place. A numeral that overflows is refused; one that underflows is a zero.
-/

namespace FieldShader

/-- The parts of a number text, as lists of digits. -/
structure Numeral where
  /-- Whether it starts with a minus sign. -/
  negative : Bool
  /-- The digits before the point. -/
  whole : List Nat
  /-- The digits after the point, empty when there is no point. -/
  fraction : List Nat
  /-- The sign of the exponent and its digits, if there is one. -/
  exponent : Option (Bool × List Nat)

namespace Numeral

/-- Appends digits to a significand while the result stays below the bound, and answers with the
digits left over. -/
def absorb (bound : Nat) : Nat → List Nat → Nat × List Nat
  | acc, [] => (acc, [])
  | acc, d :: ds => if acc * 10 + d < bound then absorb bound (acc * 10 + d) ds else (acc, d :: ds)

/-- The bound on integers of 64 bits. A negative one goes down to half of it, in absolute value. -/
def integerBound : Nat := 0x10000000000000000

/-- The bound on the digits of an exponent, which has 32 bits with its sign. -/
def exponentBound : Nat := 0x80000000

/-- The double nearest to a natural number that is in range. -/
def nearestDouble (n : Nat) : Magnitude := (BinaryFormat.double.round n 1).getD ⟨0, -1074⟩

/-- The double nearest to a power of ten up to `10 ^ 308`. -/
def powerOfTen (n : Nat) : Magnitude := nearestDouble (Nat.pow 10 n)

/-- Divides by `10 ^ n`, by steps of at most `10 ^ 308`, until nothing is left. -/
def scaleDown (x : Magnitude) (n : Nat) : Nat → Magnitude
  | 0 => x
  | fuel + 1 =>
    if n ≤ 308 then (BinaryFormat.double.div x (powerOfTen n)).getD x
    else if x.significand = 0 then x
    else scaleDown ((BinaryFormat.double.div x (powerOfTen 308)).getD x) (n - 308) fuel

/-- The double `significand · 10 ^ exponent`, if it is in range. -/
def scale (significand : Nat) (exponent : Int) : Except Fault Magnitude :=
  let x := nearestDouble significand
  if exponent < 0 then
    .ok (scaleDown x exponent.natAbs (exponent.natAbs / 308 + 1))
  else if exponent ≤ 308 then
    match BinaryFormat.double.mul x (powerOfTen exponent.toNat) with
    | some y => .ok y
    | none => .error .numberOutOfRange
  else if x.significand = 0 then .ok x
  else .error .numberOutOfRange

/-- The value of the numeral. -/
def value (n : Numeral) : Except Fault JsonNumber := do
  let (whole, surplus) := absorb integerBound 0 n.whole
  let (significand, ignored) := absorb integerBound whole n.fraction
  let places : Int := (surplus.length : Int) - (n.fraction.length - ignored.length : Nat)
  match n.exponent with
  | none =>
    if n.fraction = [] ∧ surplus = [] then
      if !n.negative then return .integer whole
      else if 0 < whole ∧ whole ≤ integerBound / 2 then return .integer (-(whole : Int))
      else return .double true (nearestDouble whole)
    else return .double n.negative (← scale significand places)
  | some (down, digits) =>
    let power : Nat := digits.foldl (fun acc d => acc * 10 + d) 0
    if exponentBound ≤ power then
      if significand = 0 ∨ down then return .double n.negative ⟨0, -1074⟩
      else throw .numberOutOfRange
    else
      return .double n.negative
        (← scale significand (if down then places - power else places + power))

/-- Minus zero is a double, the least 64-bit integer is an integer, and digits past the
significand move the point. -/
example : (Numeral.mk true [0] [] none).value.toOption = some (.double true ⟨0, -1074⟩) ∧
    (Numeral.mk true [9, 2, 2, 3, 3, 7, 2, 0, 3, 6, 8, 5, 4, 7, 7, 5, 8, 0, 8] []
      none).value.toOption = some (.integer (-2 ^ 63)) ∧
    (Numeral.mk false [1] [5] (some (true, [1]))).value.toOption =
      some (.double false ⟨5404319552844595, -55⟩) ∧
    (Numeral.mk false [1] [] (some (false, [4, 0, 0]))).value.toOption = none ∧
    (Numeral.mk false [0] [] (some (false, [4, 0, 0]))).value.toOption =
      some (.double false ⟨0, -1074⟩) := by decide +kernel

end Numeral

end FieldShader
