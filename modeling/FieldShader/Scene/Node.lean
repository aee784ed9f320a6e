import FieldShader.Scene.Material
import FieldShader.Glsl.Declaration

/-!
# Scenes

A scene is a tree: shapes and material leaves, transforms around one subtree, and operators that
combine any number of operands. Every node but a transform owns identifiers, from which the names
of its variables are made: a leaf owns one, an operator over `k` operands owns its own and the
`k - 1` after it, one per step of its fold. A transform declares nothing and answers with the
identifier of its subtree.

A tree may be assembled by hand, with any identifiers and any number of operands; the builder in
`FieldShader.Scene.Builder` makes the trees whose identifiers are distinct.
-/

namespace FieldShader

/-- Leaf geometry. Every primitive sits at the origin of its own space. -/
inductive Primitive where
  /-- A sphere around the origin. -/
  | sphere (radius : Scalar)
  /-- A two-sided plane through the origin. -/
  | plane (normal : Vector)
  /-- A half-space through the origin, negative below its surface. -/
  | ground (normal : Vector)
deriving DecidableEq

namespace Primitive

/-- The word for the primitive in messages and files. -/
def name : Primitive → String
  | .sphere _ => "sphere"
  | .plane _ => "plane"
  | .ground _ => "ground"

/-- The parameter of the primitive as source text. -/
def argument : Primitive → String
  | .sphere radius => radius.render
  | .plane normal | .ground normal => normal.render

/-- Equality of the kind and of the parameter as a value. -/
def agrees : Primitive → Primitive → Bool
  | .sphere r, .sphere r' => r.agrees r'
  | .plane n, .plane n' | .ground n, .ground n' => n.agrees n'
  | _, _ => false

end Primitive

/-- How positions of a subtree map to positions of the node around it. -/
inductive Mapping where
  /-- Adds an offset. -/
  | translate (offset : Vector)
deriving DecidableEq

namespace Mapping

/-- The word for the mapping in messages and files. -/
def name : Mapping → String
  | .translate _ => "translate"

/-- The parameter of the mapping as source text. -/
def argument : Mapping → String
  | .translate offset => offset.render

/-- The image of a position. The sum is written in parentheses, since it becomes an operand. -/
def apply : Mapping → Expr → Expr
  | .translate offset, position => .group (.binary .add position offset.toExpr)

/-- Equality of the parameter as a value. -/
def agrees : Mapping → Mapping → Bool
  | .translate a, .translate b => a.agrees b

end Mapping

/-- How an operator combines its operands, the first with each later one in turn. -/
inductive OperatorKind where
  /-- Smooth union. -/
  | union
  /-- Smooth subtraction of every later operand from the first. -/
  | difference
  /-- Smooth intersection. -/
  | cut
deriving DecidableEq

namespace OperatorKind

/-- All kinds. -/
def all : List OperatorKind := [.union, .difference, .cut]

/-- The word for the operator in messages and files. -/
def name : OperatorKind → String
  | .union => "union"
  | .difference => "difference"
  | .cut => "cut"

end OperatorKind

/-- A scene. -/
inductive Node where
  /-- A primitive with the material of its surface. -/
  | shape (id : Nat) (primitive : Primitive) (finish : Finish)
  /-- A leaf that has a color and nothing else. -/
  | material (id : Nat) (finish : Finish)
  /-- A subtree in a space of its own. -/
  | transform (mapping : Mapping) (child : Node)
  /-- A smooth combination; `id + 1`, …, one per operand after the first, number its steps. -/
  | operator (id : Nat) (kind : OperatorKind) (smoothing : Scalar) (children : List Node)

namespace Node

/-- The sort of a node. -/
inductive Category where
  | shape
  | material
  | transform
  | operator
deriving DecidableEq

/-- The sort of the node. -/
def category : Node → Category
  | .shape .. => .shape
  | .material .. => .material
  | .transform .. => .transform
  | .operator .. => .operator

/-- The word for the node in messages. -/
def name : Node → String
  | .shape _ primitive _ => primitive.name
  | .material .. => "material"
  | .transform mapping _ => mapping.name
  | .operator _ kind _ _ => kind.name

/-- The identifier of the variables that hold the properties of the node. -/
def id : Node → Nat
  | .shape id _ _ | .material id _ | .operator id _ _ _ => id
  | .transform _ child => child.id

/-- The variable that holds a property of the node. -/
def result (n : Node) (p : Property) : Variable := .numbered p n.id

mutual

/-- The number of nodes, transforms included. -/
def count : Node → Nat
  | .shape .. | .material .. => 1
  | .transform _ child => 1 + child.count
  | .operator _ _ _ children => 1 + countAll children

/-- The number of nodes of several trees. -/
def countAll : List Node → Nat
  | [] => 0
  | n :: ns => n.count + countAll ns

end

mutual

/-- The variables that hold a property in the tree, in the order in which they are declared: those
of the operands, one per step, and the operator's own. A material leaf has only a color. -/
def declared (p : Property) : Node → List Variable
  | .shape id _ _ => [.numbered p id]
  | .material id _ => if p = .color then [.numbered p id] else []
  | .transform _ child => child.declared p
  | .operator id _ _ children =>
    declaredAll p children ++
      ((List.range (children.length - 1)).map fun step => .numbered p (id + 1 + step)) ++
      [.numbered p id]

/-- The variables of several trees, in order. -/
def declaredAll (p : Property) : List Node → List Variable
  | [] => []
  | n :: ns => n.declared p ++ declaredAll p ns

end

mutual

/-- Gives every leaf of the tree the same material. -/
def repaint (finish : Finish) : Node → Node
  | .shape id primitive _ => .shape id primitive finish
  | .material id _ => .material id finish
  | .transform mapping child => .transform mapping (child.repaint finish)
  | .operator id kind smoothing children =>
    .operator id kind smoothing (repaintAll finish children)

/-- Gives every leaf of several trees the same material. -/
def repaintAll (finish : Finish) : List Node → List Node
  | [] => []
  | n :: ns => n.repaint finish :: repaintAll finish ns

end

mutual

/-- Equality of two trees, identifiers included: parameters and materials are compared as values,
so a given white material agrees with the standard one. -/
def agrees : Node → Node → Bool
  | .shape id primitive finish, .shape id' primitive' finish' =>
    id = id' && primitive.agrees primitive' && finish.material.agrees finish'.material
  | .material id finish, .material id' finish' =>
    id = id' && finish.material.agrees finish'.material
  | .transform mapping child, .transform mapping' child' =>
    mapping.agrees mapping' && child.agrees child'
  | .operator id kind smoothing children, .operator id' kind' smoothing' children' =>
    id = id' && kind = kind' && smoothing.agrees smoothing' && agreesAll children children'
  | _, _ => false

/-- Equality of two lists of trees. -/
def agreesAll : List Node → List Node → Bool
  | [], [] => true
  | n :: ns, m :: ms => n.agrees m && agreesAll ns ms
  | _, _ => false

end

/-- Puts the tree into a space that is moved by an offset. -/
def translate (offset : Vector) (n : Node) : Node := .transform (.translate offset) n

/-- The steps of an operator come after its operands and before its own variable. -/
example : (Node.operator 3 .union (.number .half)
    [.shape 0 (.plane .up) .standard, .material 1 .standard,
      .shape 2 (.plane .up) .standard]).declared .sdf =
    [.numbered .sdf 0, .numbered .sdf 2, .numbered .sdf 4, .numbered .sdf 5,
      .numbered .sdf 3] := by
  decide

end Node

end FieldShader
