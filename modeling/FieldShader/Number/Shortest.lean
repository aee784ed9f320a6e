import FieldShader.Number.Magnitude

/-!
# The shortest decimal that reads back

The reals that round to a magnitude of a format form an interval around it: half a step up, half
a step down, or a quarter step down just above a power of two, with the ends included exactly
when the significand is even. The grid `10 ^ k` meets that interval in a multiple of `10 ^ k` or
not at all; the coarsest grid that meets it gives the fewest digits, and of the multiples in the
interval only the two neighbours of the value can be the nearest. `BinaryFormat.shortest` is that
decimal. An exact tie between the two neighbours is decided by the notation that asks.
-/

namespace FieldShader

/-- The non-negative decimal number `digits · 10 ^ exponent`. -/
structure Decimal where
  /-- The digits, read as one natural number. -/
  digits : Nat
  /-- The power of ten of the last digit. -/
  exponent : Int
deriving DecidableEq

/-- Which of two equally near decimals is written. -/
inductive Tie where
  /-- The greater one. -/
  | up
  /-- The one with the even last digit. -/
  | even
deriving DecidableEq

/-- An interval of positive reals around a value, all four numbers counted in the same unit
`1 / scale`. -/
structure RoundingInterval where
  /-- The lower end. -/
  low : Nat
  /-- The value itself. -/
  value : Nat
  /-- The upper end. -/
  high : Nat
  /-- The number of units in one. -/
  scale : Nat
  /-- Whether the ends belong to the interval. -/
  closed : Bool

namespace RoundingInterval

/-- Whether the interval holds the decimal `d`. -/
def contains (i : RoundingInterval) (d : Decimal) : Bool :=
  let point := d.digits * Nat.pow 10 d.exponent.toNat * i.scale
  let low := i.low * Nat.pow 10 (-d.exponent).toNat
  let high := i.high * Nat.pow 10 (-d.exponent).toNat
  if i.closed then low ≤ point && point ≤ high else low < point && point < high

/-- The greatest multiple of `10 ^ k` that is not above the value, in units of `10 ^ k`. -/
def below (i : RoundingInterval) (k : Int) : Nat :=
  i.value * Nat.pow 10 (-k).toNat / (Nat.pow 10 k.toNat * i.scale)

/-- Compares the value with the middle between its two neighbours on the grid `10 ^ k`. -/
def side (i : RoundingInterval) (k : Int) : Ordering :=
  compare (2 * (i.value * Nat.pow 10 (-k).toNat))
    ((2 * i.below k + 1) * (Nat.pow 10 k.toNat * i.scale))

/-- The multiple of `10 ^ k` in the interval that is nearest to the value. -/
def nearest (i : RoundingInterval) (tie : Tie) (k : Int) : Option Decimal :=
  let lower : Decimal := ⟨i.below k, k⟩
  let upper : Decimal := ⟨i.below k + 1, k⟩
  match i.contains lower, i.contains upper with
  | false, false => none
  | true, false => some lower
  | false, true => some upper
  | true, true =>
    match i.side k, tie with
    | .lt, _ => some lower
    | .gt, _ => some upper
    | .eq, .up => some upper
    | .eq, .even => some (if i.below k % 2 = 0 then lower else upper)

end RoundingInterval

namespace BinaryFormat

/-- The reals that round to the magnitude `x`, counted in quarter steps. -/
def interval (f : BinaryFormat) (x : Magnitude) : RoundingInterval :=
  let unit := Nat.pow 2 (x.exponent - 2).toNat
  let gap := if x.significand = Nat.pow 2 (f.precision - 1) ∧ f.least < x.exponent then 1 else 2
  { low := (4 * x.significand - gap) * unit
    value := 4 * x.significand * unit
    high := (4 * x.significand + 2) * unit
    scale := Nat.pow 2 (2 - x.exponent).toNat
    closed := x.significand % 2 = 0 }

/-- The exponents of the decimal grids to try, coarsest first: from above the greatest magnitude
of the format to below its least one. The fraction is a little more than `log 2 / log 10`. -/
def grids (f : BinaryFormat) : List Int :=
  let top : Int := (f.greatest + f.precision) * 30103 / 100000 + 1
  let bottom : Int := f.least * 30103 / 100000 - 1
  (List.range ((top - bottom).toNat + 1)).map fun (i : Nat) => top - i

/-- The shortest decimal that rounds to the magnitude `x`, the nearest one of that length; zero
is written as itself. -/
def shortest (f : BinaryFormat) (tie : Tie) (x : Magnitude) : Decimal :=
  if x.significand = 0 then ⟨0, 0⟩
  else ((f.grids.findSome? ((f.interval x).nearest tie)).getD ⟨x.significand, x.exponent⟩)

/-- A third, the least number, a power of two with its narrow lower half, and a value half-way
between two decimals of its length. -/
example : single.shortest .up ⟨11184811, -25⟩ = ⟨33333334, -8⟩ ∧
    single.shortest .up ⟨1, -149⟩ = ⟨1, -45⟩ ∧
    single.shortest .up ⟨2 ^ 23, 2⟩ = ⟨33554432, 0⟩ ∧
    single.shortest .up ⟨8388618, -3⟩ = ⟨10485773, -1⟩ ∧
    single.shortest .even ⟨8388618, -3⟩ = ⟨10485772, -1⟩ := by decide +kernel

end BinaryFormat

end FieldShader
