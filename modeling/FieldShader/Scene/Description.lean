import FieldShader.Scene.Builder

/-!
# Descriptions

A description is a scene without identifiers. `Description.build` builds it, taking identifiers in
the order in which building it by hand, operands first, would take them; `Node.describe` forgets
the identifiers again. Only a material that was given is described, so the standard one stays
absent.
-/

namespace FieldShader

/-- A scene without identifiers. -/
inductive Description where
  /-- A primitive with its material, the standard one when absent. -/
  | shape (primitive : Primitive) (material : Option Material)
  /-- A leaf that only has a color. -/
  | material (color : Vector)
  /-- A translated subtree. -/
  | translate (offset : Vector) (child : Description)
  /-- A smooth combination. -/
  | operator (kind : OperatorKind) (smoothing : Scalar) (children : List Description)

namespace Description

mutual

/-- Builds the described scene. The operands of an operator are counted before any of them is
built, so a refused operator takes no identifiers. -/
def build : Description → Build Node
  | .shape primitive given => Build.shape primitive (.ofMaterial? given)
  | .material color => Build.material (.custom ⟨color⟩)
  | .translate offset child => do return (← child.build).translate offset
  | .operator kind smoothing children =>
    if children.length < 2 then throw (.tooFewChildren kind.name children.length)
    else do Build.operator kind smoothing (← buildAll children)

/-- Builds several scenes in order, up to the first failure. -/
def buildAll : List Description → Build (List Node)
  | [] => return []
  | d :: ds => do
    let n ← d.build
    return n :: (← buildAll ds)

end

mutual

/-- Equality of two descriptions: parameters and materials are compared as values. -/
def agrees : Description → Description → Bool
  | .shape primitive given, .shape primitive' given' =>
    primitive.agrees primitive' &&
      match given, given' with
      | none, none => true
      | some m, some m' => m.agrees m'
      | _, _ => false
  | .material color, .material color' => color.agrees color'
  | .translate offset child, .translate offset' child' =>
    offset.agrees offset' && child.agrees child'
  | .operator kind smoothing children, .operator kind' smoothing' children' =>
    kind = kind' && smoothing.agrees smoothing' && agreesAll children children'
  | _, _ => false

/-- Equality of two lists of descriptions. -/
def agreesAll : List Description → List Description → Bool
  | [], [] => true
  | d :: ds, e :: es => d.agrees e && agreesAll ds es
  | _, _ => false

end

end Description

namespace Node

mutual

/-- The description of the scene. -/
def describe : Node → Description
  | .shape _ primitive finish => .shape primitive finish.custom?
  | .material _ finish => .material finish.material.color
  | .transform (.translate offset) child => .translate offset child.describe
  | .operator _ kind smoothing children => .operator kind smoothing (describeAll children)

/-- The descriptions of several scenes. -/
def describeAll : List Node → List Description
  | [] => []
  | n :: ns => n.describe :: describeAll ns

end

end Node

end FieldShader
