import FieldShader.Proofs.Glsl.Meaning
import FieldShader.Proofs.Number.Rounding
import FieldShader.Number.Single

/-!
# Exact evaluation of generated colors

A second reading of the shading language, for the lines that mix colors. Values are rational numbers
and triples of rational numbers, operations are exact, and evaluation gets stuck where a shader
would leave the numbers: a division has a value only when what it divides by is positive. A choice
evaluates the branch that is taken and no other, so a guarded division is not looked at where its
guard fails. What a leaf is colored by is an author's fragment or vector, which the lines only pass
on; it stands for any triple.

`weight` is the weight of a blend as a function of the three distances it is made from. It is
between zero and one for distances of any kind, also when the combined distance is neither of the
others (`weight_nonneg`, `weight_le_one`), so that a mix by it stays inside any box that both values
are in (`Spans.interpolate`).
-/

namespace FieldShader

/-- A triple of rational numbers. -/
abbrev Triple := Fin 3 → ℚ

/-- A value of exact evaluation. -/
inductive Quantity where
  | scalar (value : ℚ)
  | color (value : Triple)

namespace Quantity

/-- The value of a scalar. -/
def scalar? : Quantity → Option ℚ
  | .scalar value => some value
  | .color _ => none

/-- The value of a color. -/
def color? : Quantity → Option Triple
  | .scalar _ => none
  | .color value => some value

end Quantity

/-- The number that a literal is written for. -/
def Single.rational? (x : Single) : Option ℚ :=
  match x.value with
  | .finite negative m => some (if negative then -m.toRat else m.toRat)
  | .nan | .infinite _ => none

/-- The operator on numbers. A quotient by anything that is not positive is refused. -/
def BinaryOperator.exact : BinaryOperator → ℚ → ℚ → Option ℚ
  | .add, x, y => some (x + y)
  | .sub, x, y => some (x - y)
  | .div, x, y => if 0 < y then some (x / y) else none

/-- Linear interpolation, component by component. -/
def interpolate (a b : Triple) (w : ℚ) : Triple := fun k => a k * (1 - w) + b k * w

/-- The value of an expression in a store, where fragments and vectors of the author have the value
`leaf`. Only what occurs in lines of colors is evaluated. -/
def Expr.exact (leaf : Triple) (σ : Store Quantity) : Expr → Option Quantity
  | .number x => x.rational?.map .scalar
  | .vec3 .. | .raw _ .vec3 => some (.color leaf)
  | .var v => σ v.name
  | .group a => a.exact leaf σ
  | .neg a => do return .scalar (-(← (← a.exact leaf σ).scalar?))
  | .unary .abs a => do return .scalar |← (← a.exact leaf σ).scalar?|
  | .binary op a b => do
    let x ← (← a.exact leaf σ).scalar?
    let y ← (← b.exact leaf σ).scalar?
    return .scalar (← op.exact x y)
  | .ternary .mix a b w => do
    let first ← (← a.exact leaf σ).color?
    let second ← (← b.exact leaf σ).color?
    return .color (interpolate first second (← (← w.exact leaf σ).scalar?))
  | .ifGreater a b yes no => do
    let x ← (← a.exact leaf σ).scalar?
    let y ← (← b.exact leaf σ).scalar?
    if y < x then yes.exact leaf σ else no.exact leaf σ
  | .raw _ .float | .position _ | .unary .. | .dot .. | .ternary .. => none

/-- Evaluates declarations in order. The triple of a leaf is that of the variable which its line
declares. -/
def runExact (tint : Variable → Triple) :
    Store Quantity → List Declaration → Option (Store Quantity)
  | σ, [] => some σ
  | σ, d :: ds => do runExact tint (σ.bind d.target.name (← d.value.exact (tint d.target) σ)) ds

/-- Declarations in two parts are evaluated one part after the other. -/
theorem runExact_append (tint : Variable → Triple) (σ : Store Quantity)
    (ds es : List Declaration) :
    runExact tint σ (ds ++ es) = (runExact tint σ ds).bind fun σ' => runExact tint σ' es := by
  induction ds generalizing σ with
  | nil => rfl
  | cons d ds ih =>
    rw [List.cons_append, runExact, runExact]
    cases d.value.exact (tint d.target) σ with
    | none => rfl
    | some q => exact ih _

/-! ## Weights -/

/-- The weight of the second of two operands with distances `x` and `y` whose combined distance is
`c`: how far the first is from it, as a part of how far both are. -/
def weight (x y c : ℚ) : ℚ :=
  if 0 < |x - c| + |y - c| then |x - c| / (|x - c| + |y - c|) else 1 / 2

section

variable {x y c : ℚ}

theorem weight_nonneg (x y c : ℚ) : 0 ≤ weight x y c := by
  unfold weight
  split
  · positivity
  · norm_num

theorem weight_le_one (x y c : ℚ) : weight x y c ≤ 1 := by
  unfold weight
  split
  · rename_i htotal
    rw [div_le_one htotal]
    linarith [abs_nonneg (y - c)]
  · norm_num

/-- Two operands that are both at the combined distance are mixed evenly. -/
theorem weight_of_eq_of_eq (hx : x = c) (hy : y = c) : weight x y c = 1 / 2 := by
  simp [weight, hx, hy]

/-- The first operand counts alone when only it is at the combined distance. -/
theorem weight_of_eq_of_ne (hx : x = c) (hy : y ≠ c) : weight x y c = 0 := by
  have htotal : 0 < |x - c| + |y - c| := by
    rw [hx, sub_self, abs_zero, zero_add]
    exact abs_pos.2 (sub_ne_zero.2 hy)
  rw [weight, if_pos htotal, hx, sub_self, abs_zero, zero_div]

/-- The second operand counts alone when only it is at the combined distance. -/
theorem weight_of_ne_of_eq (hx : x ≠ c) (hy : y = c) : weight x y c = 1 := by
  have hnear : 0 < |x - c| := abs_pos.2 (sub_ne_zero.2 hx)
  rw [weight, hy, sub_self, abs_zero, add_zero, if_pos hnear, div_self hnear.ne']

end

/-- The literal zero is exactly zero. -/
theorem rational?_zero : Single.zero.rational? = some 0 := by
  have hvalue : Single.zero.value = .finite false ⟨0, -149⟩ := by decide
  rw [Single.rational?, hvalue]
  simp [Magnitude.toRat]

/-- The literal one half is exactly one half. -/
theorem rational?_half : Single.half.rational? = some (1 / 2) := by
  have hvalue : Single.half.value = .finite false ⟨2 ^ 23, -24⟩ := by decide
  rw [Single.rational?, hvalue]
  norm_num [Magnitude.toRat]

/-! ## Boxes -/

/-- The triple lies in the smallest box around some triples: none of its components is below those
of all of them, and none is above. -/
def Spans (ts : List Triple) (c : Triple) : Prop :=
  ∀ k, (∃ t ∈ ts, t k ≤ c k) ∧ ∃ t ∈ ts, c k ≤ t k

namespace Spans

variable {ts : List Triple} {a b c : Triple} {w : ℚ}

/-- A triple is in every box around it. -/
theorem of_mem (h : c ∈ ts) : Spans ts c := fun _ => ⟨⟨c, h, le_rfl⟩, c, h, le_rfl⟩

/-- **A mix of two triples of a box is in the box.** -/
theorem interpolate (ha : Spans ts a) (hb : Spans ts b) (h0 : 0 ≤ w) (h1 : w ≤ 1) :
    Spans ts (interpolate a b w) := by
  intro k
  obtain ⟨⟨loA, hloA, hleA⟩, hiA, hhiA, hgeA⟩ := ha k
  obtain ⟨⟨loB, hloB, hleB⟩, hiB, hhiB, hgeB⟩ := hb k
  -- The mix is between the two values, so the lesser of them bounds it from below.
  have hsplit : FieldShader.interpolate a b w k = a k * (1 - w) + b k * w := rfl
  constructor
  · rcases le_total (a k) (b k) with hab | hba
    · exact ⟨loA, hloA, by rw [hsplit]; nlinarith⟩
    · exact ⟨loB, hloB, by rw [hsplit]; nlinarith⟩
  · rcases le_total (a k) (b k) with hab | hba
    · exact ⟨hiB, hhiB, by rw [hsplit]; nlinarith⟩
    · exact ⟨hiA, hhiA, by rw [hsplit]; nlinarith⟩

end Spans

end FieldShader
