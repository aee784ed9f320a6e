import FieldShader.Proofs.Scene.Defects
import FieldShader.Proofs.Scene.Rebuilding
import Mathlib.Algebra.GroupWithZero.Nat

/-!
# The outline of a description

A description has the same tree as the scenes it builds, and this module gives the views of it that
`Node.parts`, `Node.at?` and `Node.leftOf` are of a scene. Describing a scene commutes with each of
them (`Node.parts_describe`, `Node.at?_describe`), and every description is the description of
some scene (`Description.exists_describe`), so what is known of the trees of scenes can be read for
descriptions.

`Description.size` counts the identifiers that a description asks for: one for every leaf and one
for every operand of every operator (`Description.size_eq`).
-/

namespace FieldShader

namespace Description

/-! ## Parts and positions -/

/-- The descriptions right below. -/
def children : Description → List Description
  | .shape .. | .material .. => []
  | .translate _ child => [child]
  | .operator _ _ operands => operands

mutual

/-- All descriptions that occur in it, itself included, in preorder. -/
def parts : Description → List Description
  | .shape primitive given => [.shape primitive given]
  | .material color => [.material color]
  | .translate offset child => .translate offset child :: child.parts
  | .operator kind smoothing operands =>
    .operator kind smoothing operands :: partsAll operands

/-- All descriptions that occur in several ones. -/
def partsAll : List Description → List Description
  | [] => []
  | d :: ds => d.parts ++ partsAll ds

end

/-- The parts of several descriptions, in the natural form. -/
theorem partsAll_eq_flatMap (ds : List Description) : partsAll ds = ds.flatMap parts := by
  induction ds with
  | nil => rfl
  | cons d ds ih => rw [partsAll, List.flatMap_cons, ih]

/-- The description at a position: each number is that of the child that the way goes into. -/
def at? (d : Description) : List Nat → Option Description
  | [] => some d
  | k :: rest => d.children[k]?.bind fun c => c.at? rest

/-- The descriptions to the left of the way to a position, in order. -/
def leftOf (d : Description) : List Nat → List Description
  | [] => []
  | k :: rest => d.children.take k ++ (d.children[k]?).elim [] fun c => c.leftOf rest

/-! ## Sizes -/

/-- Whether the description is of a leaf. -/
def isLeaf : Description → Bool
  | .shape .. | .material .. => true
  | .translate .. | .operator .. => false

/-- The number of operands of an operator. -/
def arity : Description → Nat
  | .operator _ _ operands => operands.length
  | .shape .. | .material .. | .translate .. => 0

/-- How many identifiers the description asks for besides those of what is below it. -/
def width (d : Description) : Nat := if d.isLeaf then 1 else d.arity

/-- How many identifiers the description asks for. -/
def size (d : Description) : Nat := (d.parts.map width).sum

@[simp] theorem size_shape (primitive : Primitive) (given : Option Material) :
    (shape primitive given).size = 1 := rfl

@[simp] theorem size_material (color : Vector) : (material color).size = 1 := rfl

@[simp] theorem size_translate (offset : Vector) (child : Description) :
    (translate offset child).size = child.size := by
  rw [size, parts, List.map_cons, List.sum_cons]
  exact Nat.zero_add _

@[simp] theorem size_operator (kind : OperatorKind) (smoothing : Scalar)
    (operands : List Description) :
    (operator kind smoothing operands).size = (operands.map size).sum + operands.length := by
  rw [size, parts, List.map_cons, List.sum_cons, partsAll_eq_flatMap, List.map_flatMap,
    List.flatMap_def, List.sum_flatten, List.map_map, Nat.add_comm]
  rfl

/-- The identifiers are those of the leaves and those of the operators, each of which takes as many
as it has operands. -/
theorem size_eq (d : Description) :
    d.size = d.parts.countP isLeaf + (d.parts.map arity).sum := by
  have hwidth (m : Description) : m.width = (if m.isLeaf then 1 else 0) + m.arity := by
    cases m <;> simp [width, isLeaf, arity]
  unfold size
  induction d.parts with
  | nil => rfl
  | cons m ms ih =>
    rw [List.map_cons, List.sum_cons, ih, hwidth, List.countP_cons, List.map_cons, List.sum_cons]
    omega

end Description

/-! ## Scenes and their descriptions -/

namespace Node

/-- What is right below a description is described by what is right below the scene. -/
theorem children_describe (n : Node) : n.describe.children = n.children.map describe := by
  cases n with
  | shape | material => rfl
  | transform mapping child =>
    obtain ⟨offset⟩ := mapping
    rfl
  | operator id kind smoothing operands => exact describeAll_eq_map operands

/-- The parts of a description are described by the parts of the scene. -/
theorem parts_describe (n : Node) : n.describe.parts = n.parts.map describe := by
  induction n using recTree with
  | shape | material => rfl
  | transform mapping child ih =>
    obtain ⟨offset⟩ := mapping
    rw [describe, Description.parts, ih]
    rfl
  | operator id kind smoothing operands ih =>
    have hparts : Description.partsAll (describeAll operands) =
        (partsAll operands).map describe := by
      rw [Description.partsAll_eq_flatMap, describeAll_eq_map, partsAll_eq_flatMap,
        List.flatMap_map, List.map_flatMap, List.flatMap_congr ih]
    rw [describe, Description.parts, hparts]
    rfl

/-- A position leads to the same place in a scene and in its description. -/
theorem at?_describe (n : Node) (π : List Nat) :
    n.describe.at? π = (n.at? π).map describe := by
  induction π generalizing n with
  | nil => rfl
  | cons k rest ih =>
    rw [Description.at?, at?, children_describe, List.getElem?_map]
    cases n.children[k]? with
    | none => rfl
    | some c => exact ih c

end Node

namespace Description

/-- Every description is that of a scene. -/
theorem exists_describe (d : Description) : ∃ n : Node, n.describe = d := by
  induction d using recTree with
  | shape primitive given =>
    exact ⟨.shape 0 primitive (.ofMaterial? given), by simp [Node.describe]⟩
  | material color => exact ⟨.material 0 (.custom ⟨color⟩), rfl⟩
  | translate offset child ih =>
    obtain ⟨n, rfl⟩ := ih
    exact ⟨n.translate offset, rfl⟩
  | operator kind smoothing operands ih =>
    obtain ⟨ns, rfl⟩ : ∃ ns : List Node, Node.describeAll ns = operands := by
      induction operands with
      | nil => exact ⟨[], rfl⟩
      | cons d ds ihds =>
        obtain ⟨n, rfl⟩ := ih d List.mem_cons_self
        obtain ⟨ns, rfl⟩ := ihds fun e he => ih e (List.mem_cons_of_mem _ he)
        exact ⟨n :: ns, rfl⟩
    exact ⟨.operator 0 kind smoothing ns, rfl⟩

end Description

end FieldShader
