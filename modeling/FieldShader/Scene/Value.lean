import FieldShader.Glsl.Expr

/-!
# Scalars and vectors of a scene

The parameters of a scene are values of a known domain: a `Scalar` is a number or a raw fragment
that stands for one, a `Vector` is three scalars or a raw fragment. Each becomes an expression of
its domain (`Scalar.type_toExpr`, `Vector.type_toExpr`), so that no declaration is bound to a
value of the wrong type.
-/

namespace FieldShader

/-- A real parameter of a scene. -/
inductive Scalar where
  /-- A constant. -/
  | number (value : Single)
  /-- Source text of an expression of type `float`. -/
  | raw (source : String)
deriving DecidableEq

namespace Scalar

/-- The scalar as an expression. -/
def toExpr : Scalar → Expr
  | .number value => .number value
  | .raw source => .raw source .float

/-- The scalar as source text. -/
def render (s : Scalar) : String := s.toExpr.render

/-- A scalar has type `float`. -/
@[simp] theorem type_toExpr (s : Scalar) : s.toExpr.type = .float := by cases s <;> rfl

/-- Equality of values: numbers are compared as numbers, fragments as texts. -/
def agrees : Scalar → Scalar → Bool
  | .number x, .number y => x.agrees y
  | .raw s, .raw t => s = t
  | _, _ => false

end Scalar

/-- A vector parameter of a scene. -/
inductive Vector where
  /-- A vector given by its three components. -/
  | components (x y z : Scalar)
  /-- Source text of an expression of type `vec3`. -/
  | raw (source : String)
deriving DecidableEq

namespace Vector

/-- The vector of three constants. -/
def ofSingles (x y z : Single) : Vector := .components (.number x) (.number y) (.number z)

/-- The zero vector. -/
def zero : Vector := ofSingles .zero .zero .zero

/-- The unit vector along the second axis, which points up. -/
def up : Vector := ofSingles .zero .one .zero

/-- The vector as an expression. -/
def toExpr : Vector → Expr
  | .components x y z => .vec3 x.toExpr y.toExpr z.toExpr
  | .raw source => .raw source .vec3

/-- The vector as source text. -/
def render (v : Vector) : String := v.toExpr.render

/-- A vector has type `vec3`. -/
@[simp] theorem type_toExpr (v : Vector) : v.toExpr.type = .vec3 := by cases v <;> rfl

/-- Equality of values, component by component. -/
def agrees : Vector → Vector → Bool
  | .components x y z, .components x' y' z' => x.agrees x' && y.agrees y' && z.agrees z'
  | .raw s, .raw t => s = t
  | _, _ => false

end Vector

end FieldShader
