import FieldShader.Scene.Description
import Mathlib.Data.List.Basic

/-!
# Trees: induction, parts and identifiers

A node is a nested inductive type, and every function on it comes with a companion on lists of
nodes. This module gives what the proofs about such functions share: `Node.recTree`, an induction
whose hypothesis at an operator is about each operand, and for each companion the equation that
turns it into `List.map`, `List.flatMap` or a sum.

It also gives two ways to look at a whole tree. `Node.parts` are the nodes that occur in it, and
`Node.ids` are the identifiers it owns: one for a leaf, and as many as it has operands for an
operator, its own first.
-/

namespace FieldShader

namespace Node

/-- Induction over a scene. At an operator the statement may be assumed of every operand. -/
@[elab_as_elim]
theorem recTree {motive : Node → Prop}
    (shape : ∀ id primitive finish, motive (.shape id primitive finish))
    (material : ∀ id finish, motive (.material id finish))
    (transform : ∀ mapping child, motive child → motive (.transform mapping child))
    (operator : ∀ id kind smoothing children, (∀ c ∈ children, motive c) →
      motive (.operator id kind smoothing children)) (n : Node) : motive n := by
  refine @Node.rec motive (fun cs => ∀ c ∈ cs, motive c) shape material transform operator
    (fun c hc => nomatch hc) (fun head tail hhead htail c hc => ?_) n
  rcases List.mem_cons.1 hc with rfl | hc
  · exact hhead
  · exact htail c hc

/-! ## Functions on several trees -/

/-- The declared variables of several trees, in the natural form. -/
theorem declaredAll_eq_flatMap (p : Property) (ns : List Node) :
    declaredAll p ns = ns.flatMap (declared p) := by
  induction ns with
  | nil => rfl
  | cons n ns ih => rw [declaredAll, List.flatMap_cons, ih]

/-- Repainting several trees, in the natural form. -/
theorem repaintAll_eq_map (finish : Finish) (ns : List Node) :
    repaintAll finish ns = ns.map (repaint finish) := by
  induction ns with
  | nil => rfl
  | cons n ns ih => rw [repaintAll, List.map_cons, ih]

/-! ## The identifiers of a tree -/

mutual

/-- The identifiers that the tree owns. An operator over `k` operands owns `id`, …, `id + k - 1`
besides those of its operands. -/
def ids : Node → List Nat
  | .shape id _ _ | .material id _ => [id]
  | .transform _ child => child.ids
  | .operator id _ _ children => idsAll children ++ List.range' id children.length

/-- The identifiers that several trees own. -/
def idsAll : List Node → List Nat
  | [] => []
  | n :: ns => n.ids ++ idsAll ns

end

@[simp] theorem ids_shape (id : Nat) (primitive : Primitive) (finish : Finish) :
    (shape id primitive finish).ids = [id] := by rw [ids]

@[simp] theorem ids_material (id : Nat) (finish : Finish) : (material id finish).ids = [id] := by
  rw [ids]

@[simp] theorem ids_transform (mapping : Mapping) (child : Node) :
    (transform mapping child).ids = child.ids := by rw [ids]

@[simp] theorem ids_operator (id : Nat) (kind : OperatorKind) (smoothing : Scalar)
    (children : List Node) : (operator id kind smoothing children).ids =
      idsAll children ++ List.range' id children.length := by rw [ids]

/-- The identifiers of several trees, in the natural form. -/
theorem idsAll_eq_flatMap (ns : List Node) : idsAll ns = ns.flatMap ids := by
  induction ns with
  | nil => rfl
  | cons n ns ih => rw [idsAll, List.flatMap_cons, ih]

/-- An identifier of several trees is one of a tree among them. -/
@[simp] theorem mem_idsAll {ns : List Node} {i : Nat} :
    i ∈ idsAll ns ↔ ∃ n ∈ ns, i ∈ n.ids := by
  rw [idsAll_eq_flatMap, List.mem_flatMap]

/-- Repainting keeps the identifiers. -/
@[simp] theorem ids_repaint (finish : Finish) (n : Node) : (n.repaint finish).ids = n.ids := by
  induction n using recTree with
  | shape id primitive _ => simp [repaint]
  | material id _ => simp [repaint]
  | transform mapping child ih => simpa [repaint] using ih
  | operator id kind smoothing children ih =>
    rw [repaint, ids_operator, ids_operator, repaintAll_eq_map, List.length_map,
      idsAll_eq_flatMap, idsAll_eq_flatMap, List.flatMap_map, List.flatMap_congr ih]

/-- Repainting several trees keeps their identifiers. -/
theorem idsAll_map_repaint (finish : Finish) (ns : List Node) :
    idsAll (ns.map (repaint finish)) = idsAll ns := by
  simp [idsAll_eq_flatMap, List.flatMap_map]

/-! ## The parts of a tree -/

mutual

/-- All nodes that occur in the tree, itself included. -/
def parts : Node → List Node
  | .shape id primitive finish => [.shape id primitive finish]
  | .material id finish => [.material id finish]
  | .transform mapping child => .transform mapping child :: child.parts
  | .operator id kind smoothing children =>
    .operator id kind smoothing children :: partsAll children

/-- All nodes that occur in several trees. -/
def partsAll : List Node → List Node
  | [] => []
  | n :: ns => n.parts ++ partsAll ns

end

/-- The parts of several trees, in the natural form. -/
theorem partsAll_eq_flatMap (ns : List Node) : partsAll ns = ns.flatMap parts := by
  induction ns with
  | nil => rfl
  | cons n ns ih => rw [partsAll, List.flatMap_cons, ih]

/-- The parts of a transform are itself and those of its subtree. -/
@[simp] theorem mem_parts_transform {m : Node} {mapping : Mapping} {child : Node} :
    m ∈ (transform mapping child).parts ↔ m = transform mapping child ∨ m ∈ child.parts := by
  rw [parts, List.mem_cons]

/-- The parts of an operator are itself and those of its operands. -/
@[simp] theorem mem_parts_operator {m : Node} {id : Nat} {kind : OperatorKind}
    {smoothing : Scalar} {children : List Node} :
    m ∈ (operator id kind smoothing children).parts ↔
      m = operator id kind smoothing children ∨ ∃ c ∈ children, m ∈ c.parts := by
  rw [parts, List.mem_cons, partsAll_eq_flatMap, List.mem_flatMap]

end Node

end FieldShader
