import FieldShader.Glsl.Property
import FieldShader.Number.Notation

/-!
# Expressions of the shading language

`Expr` has the expressions that occur in generated declarations. It is a syntax tree and not a
text, so that a declaration can be evaluated, typed and read for the variables it uses; `render`
is its text. Grouping parentheses are part of the tree: `render` writes the ones that are there
and adds none, apart from those around a raw fragment, whose inside is not known.
-/

namespace FieldShader

/-- Functions of one argument. -/
inductive UnaryFunction where
  | length
  | abs
  | normalize
deriving DecidableEq

/-- Functions of three arguments: the smooth minimum and maximum that a shader supplies, and
linear interpolation. -/
inductive TernaryFunction where
  | smin
  | smax
  | mix
deriving DecidableEq

/-- Operators between two operands. -/
inductive BinaryOperator where
  | add
  | sub
  | div
deriving DecidableEq

namespace UnaryFunction

/-- The name of the function. -/
def name : UnaryFunction → String
  | .length => "length"
  | .abs => "abs"
  | .normalize => "normalize"

end UnaryFunction

namespace TernaryFunction

/-- The name of the function. -/
def name : TernaryFunction → String
  | .smin => "smin"
  | .smax => "smax"
  | .mix => "mix"

end TernaryFunction

namespace BinaryOperator

/-- The operator with a blank on either side. -/
def text : BinaryOperator → String
  | .add => " + "
  | .sub => " - "
  | .div => " / "

end BinaryOperator

/-- An expression of the shading language. -/
inductive Expr where
  /-- A literal. -/
  | number (value : Single)
  /-- The vector with the given components. -/
  | vec3 (x y z : Expr)
  /-- A fragment of source text of a declared type, written inside parentheses. -/
  | raw (source : String) (type : GlslType)
  /-- A position that the surrounding shader names. -/
  | position (name : String)
  /-- A variable declared by a generated line. -/
  | var (name : Variable)
  /-- A call with one argument. -/
  | unary (function : UnaryFunction) (argument : Expr)
  /-- The scalar product of two vectors. -/
  | dot (left right : Expr)
  /-- A call with three arguments. -/
  | ternary (function : TernaryFunction) (first second third : Expr)
  /-- The opposite of an operand. -/
  | neg (operand : Expr)
  /-- An operator between two operands. -/
  | binary (operator : BinaryOperator) (left right : Expr)
  /-- A choice between two values, by whether the first operand exceeds the second. -/
  | ifGreater (left right yes no : Expr)
  /-- An expression in parentheses. -/
  | group (inner : Expr)
deriving DecidableEq

namespace Expr

/-- The expression as source text. -/
def render : Expr → String
  | .number value => value.literal
  | .vec3 x y z => "vec3(" ++ x.render ++ ", " ++ y.render ++ ", " ++ z.render ++ ")"
  | .raw source _ => "(" ++ source ++ ")"
  | .position name => name
  | .var v => v.name
  | .unary f a => f.name ++ "(" ++ a.render ++ ")"
  | .dot a b => "dot(" ++ a.render ++ ", " ++ b.render ++ ")"
  | .ternary f a b c => f.name ++ "(" ++ a.render ++ ", " ++ b.render ++ ", " ++ c.render ++ ")"
  | .neg a => "-" ++ a.render
  | .binary op a b => a.render ++ op.text ++ b.render
  | .ifGreater a b yes no =>
    a.render ++ " > " ++ b.render ++ " ? " ++ yes.render ++ " : " ++ no.render
  | .group a => "(" ++ a.render ++ ")"

/-- The type that the outermost symbol of the expression announces. It is the type of the
expression when every operand has the type its place asks for. -/
def type : Expr → GlslType
  | .number _ => .float
  | .vec3 _ _ _ => .vec3
  | .raw _ t => t
  | .position _ => .vec3
  | .var v => v.property.type
  | .unary .length _ => .float
  | .unary .abs a => a.type
  | .unary .normalize a => a.type
  | .dot _ _ => .float
  | .ternary _ a _ _ => a.type
  | .neg a => a.type
  | .binary _ a _ => a.type
  | .ifGreater _ _ yes _ => yes.type
  | .group a => a.type

/-- The literal `0.0`. -/
def zero : Expr := .number .zero

/-- The literal `0.5`. -/
def half : Expr := .number .half

/-- The sample point of a shader, in world space. -/
def point : Expr := .position "point"

/-- Nesting is written inside out, and only a raw fragment brings parentheses of its own. -/
example : (Expr.vec3 (.number .one) half (.raw "u_time * 2.0" .float)).render =
    "vec3(1.0, 0.5, (u_time * 2.0))" ∧
    (Expr.unary .length (.binary .sub point (.group (.binary .add zero half)))).render =
      "length(point - (0.0 + 0.5))" := by
  decide +kernel

end Expr

end FieldShader
