import FieldShader.SceneFile.Parts

/-!
# Parameters as expressions and as they are stored

A parameter of a scene is an expression of a known domain: a scalar is a number or a fragment of type
`float` (`Expr.IsScalar`), a vector is three scalars or a fragment of type `vec3` (`Expr.IsVector`).
It is stored without its type, and an expression outside the domain would have to fall back on its
text (`Scalar.ofExpr`, `Vector.ofExpr`). `Expr.made_iff` says that this never happens: whichever way
a parameter came about, it is in its domain, and it is stored so that it can be had back.

The domain is what the ways of making a parameter have in common. That a parameter is in it is by
cases on how it was made; that it is had back is by cases on the domain, where a fragment regains the
type that it was stored without, since there is only one type that it can have had.
-/

namespace FieldShader

/-! ## Domains -/

namespace Expr

/-- A number, or a fragment of type `float`. -/
def IsScalar : Expr → Prop
  | .number _ => True
  | .raw _ t => t = .float
  | _ => False

/-- Three scalars, or a fragment of type `vec3`. -/
def IsVector : Expr → Prop
  | .vec3 x y z => x.IsScalar ∧ y.IsScalar ∧ z.IsScalar
  | .raw _ t => t = .vec3
  | _ => False

/-- The ways in which a scalar comes about: from a number, from a fragment, or read from a file. -/
inductive MadeScalar : Expr → Prop
  | number (value : Single) : MadeScalar (.number value)
  | raw (source : String) : MadeScalar (.raw source .float)
  | read {v : JsonValue} {s : Scalar} (h : Scalar.ofJson? v = some s) : MadeScalar s.toExpr

/-- The ways in which a vector comes about: from three scalars, from nothing, from a fragment, from
three numbers, or read from a file. -/
inductive MadeVector : Expr → Prop
  | components {x y z : Expr} (hx : MadeScalar x) (hy : MadeScalar y) (hz : MadeScalar z) :
      MadeVector (.vec3 x y z)
  | zero : MadeVector Vector.zero.toExpr
  | raw (source : String) : MadeVector (.raw source .vec3)
  | ofSingles (x y z : Single) : MadeVector (Vector.ofSingles x y z).toExpr
  | read {v : JsonValue} {w : Vector} (h : Vector.ofJson? v = some w) : MadeVector w.toExpr

end Expr

/-! ## Stored forms -/

namespace Scalar

/-- The scalar that an expression is stored as. What is neither a number nor a fragment falls back
on its text. -/
def ofExpr : Expr → Scalar
  | .number value => .number value
  | .raw source _ => .raw source
  | e => .raw e.render

/-- The scalar that an expression is stored as, unless it would have to fall back on its text. -/
def direct? : Expr → Option Scalar
  | .number value => some (.number value)
  | .raw source _ => some (.raw source)
  | _ => none

/-- A scalar is in its domain. -/
theorem isScalar_toExpr (s : Scalar) : s.toExpr.IsScalar := by
  cases s with
  | number value => trivial
  | raw source => rfl

/-- A scalar is stored as itself. -/
@[simp] theorem ofExpr_toExpr (s : Scalar) : ofExpr s.toExpr = s := by cases s <;> rfl

end Scalar

namespace Vector

/-- The vector that an expression is stored as, each of three components in its own form. What is
neither made of components nor a fragment falls back on its text. -/
def ofExpr : Expr → Vector
  | .vec3 x y z => .components (.ofExpr x) (.ofExpr y) (.ofExpr z)
  | .raw source _ => .raw source
  | e => .raw e.render

/-- The vector that an expression is stored as, unless it or one of its components would have to
fall back on its text. -/
def direct? : Expr → Option Vector
  | .vec3 x y z => do
    return .components (← Scalar.direct? x) (← Scalar.direct? y) (← Scalar.direct? z)
  | .raw source _ => some (.raw source)
  | _ => none

/-- A vector is in its domain. -/
theorem isVector_toExpr (v : Vector) : v.toExpr.IsVector := by
  cases v with
  | components x y z => exact ⟨x.isScalar_toExpr, y.isScalar_toExpr, z.isScalar_toExpr⟩
  | raw source => rfl

/-- A vector is stored as itself. -/
@[simp] theorem ofExpr_toExpr (v : Vector) : ofExpr v.toExpr = v := by
  cases v with
  | components x y z => simp [toExpr, ofExpr]
  | raw source => rfl

end Vector

/-! ## What was made is had back -/

namespace Expr

variable {e : Expr}

/-- A scalar is in its domain, whichever way it was made. -/
theorem MadeScalar.isScalar (h : e.MadeScalar) : e.IsScalar := by
  cases h with
  | number value => trivial
  | raw source => rfl
  | read h => exact Scalar.isScalar_toExpr _

/-- A vector is in its domain, whichever way it was made. -/
theorem MadeVector.isVector (h : e.MadeVector) : e.IsVector := by
  cases h with
  | components hx hy hz => exact ⟨hx.isScalar, hy.isScalar, hz.isScalar⟩
  | zero => exact Vector.isVector_toExpr _
  | raw source => rfl
  | ofSingles x y z => exact Vector.isVector_toExpr _
  | read h => exact Vector.isVector_toExpr _

/-- What is in the domain of scalars can be made. -/
theorem IsScalar.made (h : e.IsScalar) : e.MadeScalar := by
  cases e with
  | number value => exact .number value
  | raw source t =>
    obtain rfl : t = .float := h
    exact .raw source
  | _ => cases h

/-- What is in the domain of vectors can be made. -/
theorem IsVector.made (h : e.IsVector) : e.MadeVector := by
  cases e with
  | vec3 x y z => exact .components h.1.made h.2.1.made h.2.2.made
  | raw source t =>
    obtain rfl : t = .vec3 := h
    exact .raw source
  | _ => cases h

/-- What is in the domain of scalars does not fall back on its text, and is had back. -/
theorem IsScalar.stored (h : e.IsScalar) :
    Scalar.direct? e = some (.ofExpr e) ∧ (Scalar.ofExpr e).toExpr = e := by
  cases e with
  | number value => exact ⟨rfl, rfl⟩
  | raw source t =>
    obtain rfl : t = .float := h
    exact ⟨rfl, rfl⟩
  | _ => cases h

/-- What is in the domain of vectors does not fall back on its text, and is had back. -/
theorem IsVector.stored (h : e.IsVector) :
    Vector.direct? e = some (.ofExpr e) ∧ (Vector.ofExpr e).toExpr = e := by
  cases e with
  | vec3 x y z =>
    obtain ⟨hx, hy, hz⟩ := h
    simp [Vector.direct?, Vector.ofExpr, Vector.toExpr, hx.stored, hy.stored, hz.stored]
  | raw source t =>
    obtain rfl : t = .vec3 := h
    exact ⟨rfl, rfl⟩
  | _ => cases h

/-- **Parameters keep their domain and are stored without loss.** The expressions that are made as
scalars are those in the domain of scalars: they never fall back on their text, and what they are
stored as gives them back, fragments with their type. The same holds of vectors, whose components
stay in their places. The other way around, what is stored is made into an expression that is
stored as the same again. -/
theorem made_iff :
    (∀ e : Expr, e.MadeScalar ↔
      e.IsScalar ∧ Scalar.direct? e = some (.ofExpr e) ∧ (Scalar.ofExpr e).toExpr = e) ∧
    (∀ e : Expr, e.MadeVector ↔
      e.IsVector ∧ Vector.direct? e = some (.ofExpr e) ∧ (Vector.ofExpr e).toExpr = e) ∧
    (∀ s : Scalar, s.toExpr.MadeScalar ∧ Scalar.ofExpr s.toExpr = s) ∧
    ∀ v : Vector, v.toExpr.MadeVector ∧ Vector.ofExpr v.toExpr = v := by
  refine ⟨fun e => ?_, fun e => ?_, fun s => ?_, fun v => ?_⟩
  · exact ⟨fun h => ⟨h.isScalar, h.isScalar.stored⟩, fun h => h.1.made⟩
  · exact ⟨fun h => ⟨h.isVector, h.isVector.stored⟩, fun h => h.1.made⟩
  · exact ⟨s.isScalar_toExpr.made, s.ofExpr_toExpr⟩
  · exact ⟨v.isVector_toExpr.made, v.ofExpr_toExpr⟩

/-- A fragment between two numbers stays between them; one of the wrong type would change it, and
anything else would be stored as its text. -/
example : Vector.ofExpr (.vec3 .zero (.raw "t" .float) .half) =
      .components (.number .zero) (.raw "t") (.number .half) ∧
    (Vector.ofExpr (.raw "t" .float)).toExpr = .raw "t" .vec3 ∧
    Scalar.ofExpr (.vec3 .zero (.raw "t" .float) .half) = .raw "vec3(0.0, (t), 0.5)" := by
  decide +kernel

end Expr

end FieldShader
