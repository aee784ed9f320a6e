import FieldShader.Glsl.Expr

/-!
# Declarations

A generated line declares one variable with the type of its property. The public alias of a
property is a declaration too: it binds the public variable to a numbered one.
-/

namespace FieldShader

/-- The text `type name = value;` of a declaration. -/
def Variable.declare (v : Variable) (value : String) : String :=
  v.property.type.keyword ++ " " ++ v.name ++ " = " ++ value ++ ";"

/-- A line of a generated shader: a variable and the expression it is bound to. -/
structure Declaration where
  /-- The variable that the line declares. -/
  target : Variable
  /-- The value it is bound to. -/
  value : Expr
deriving DecidableEq

namespace Declaration

/-- The line as source text. -/
def render (d : Declaration) : String := d.target.declare d.value.render

/-- Binds the public variable of a property to a numbered one. -/
def publish (p : Property) (id : Nat) : Declaration := ⟨.shared p, .var (.numbered p id)⟩

/-- An alias is an ordinary declaration without a number on its left. -/
example : (publish .sdf 3).render = "float sdf = sdf3;" ∧
    (Declaration.mk (.numbered .color 0) (.raw "c" .vec3)).render = "vec3 color0 = (c);" := by
  decide

end Declaration

end FieldShader
