/-!
# Properties and the variables that hold them

A generated shader evaluates three properties of a scene at a point: the signed distance to the
surface, its normal and its color. The tag of a property names it in templates, is the stem of
every variable that holds it, and fixes the type those variables are declared with. A `Variable`
is either numbered, one per intermediate value of a scene, or public, the one name under which a
template finds the result.
-/

namespace FieldShader

/-- The types of values in generated declarations. -/
inductive GlslType where
  /-- A real number. -/
  | float
  /-- A vector of three real numbers. -/
  | vec3
deriving DecidableEq

namespace GlslType

/-- The keyword of the shading language. -/
def keyword : GlslType → String
  | .float => "float"
  | .vec3 => "vec3"

/-- All types. -/
def all : List GlslType := [.float, .vec3]

end GlslType

/-- A property a shader evaluates at a point. -/
inductive Property where
  /-- Signed distance to the surface. -/
  | sdf
  /-- Surface normal. -/
  | normal
  /-- Surface color. -/
  | color
deriving DecidableEq

namespace Property

/-- All properties, in the order in which a template usually evaluates them. -/
def all : List Property := [.sdf, .normal, .color]

/-- The word that names the property in a directive and starts its variables. -/
def tag : Property → String
  | .sdf => "sdf"
  | .normal => "normal"
  | .color => "color"

/-- The type of every variable that holds the property. -/
def type : Property → GlslType
  | .sdf => .float
  | .normal | .color => .vec3

/-- The property a tag names. -/
def ofTag? (tag : String) : Option Property := all.find? (·.tag = tag)

/-- A tag names its own property. -/
theorem ofTag?_tag (p : Property) : ofTag? p.tag = some p := by cases p <;> decide

/-- Only its tag names a property. -/
theorem tag_eq_of_ofTag? {t : String} {p : Property} (h : ofTag? t = some p) : p.tag = t := by
  simpa using List.find?_some h

end Property

/-- A variable of the generated shader. -/
inductive Variable where
  /-- Holds a property of one part of a scene. -/
  | numbered (property : Property) (id : Nat)
  /-- Holds a property of the whole scene, under its tag alone. -/
  | shared (property : Property)
deriving DecidableEq

namespace Variable

/-- The property the variable holds. -/
def property : Variable → Property
  | .numbered p _ | .shared p => p

/-- The name of the variable: its tag, followed by its number if it has one. -/
def name : Variable → String
  | .numbered p id => p.tag ++ toString id
  | .shared p => p.tag

end Variable

end FieldShader
