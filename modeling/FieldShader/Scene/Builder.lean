import FieldShader.Scene.Allocator
import FieldShader.Scene.Node

/-!
# Building scenes

Nodes are built with identifiers of an allocator that is threaded through: a `Build` takes an
allocator and leaves one, also when it fails. Operands are built before the operator over them, so
an operator's identifiers are above those of its operands, and blocks never overlap; together this
keeps all variables of a scene distinct.
-/

namespace FieldShader

/-- A computation that takes identifiers and may fail, keeping the identifiers it has taken. -/
abbrev Build (α : Type) := EStateM BuildError Allocator α

namespace Build

/-- Takes a block of identifiers and answers with the first one. -/
def reserve (count : Nat) : Build Nat := fun a =>
  match a.reserve count with
  | .ok (base, a') => .ok base a'
  | .error e => .error e a

/-- A shape. -/
def shape (primitive : Primitive) (finish : Finish) : Build Node := do
  return .shape (← reserve 1) primitive finish

/-- A leaf that only has a material. -/
def material (finish : Finish) : Build Node := do
  return .material (← reserve 1) finish

/-- An operator over nodes that are already built. It is refused, before any identifier is taken,
when there are fewer than two. -/
def operator (kind : OperatorKind) (smoothing : Scalar) (children : List Node) : Build Node :=
  if children.length < 2 then throw (.tooFewChildren kind.name children.length)
  else do return .operator (← reserve children.length) kind smoothing children

/-- A sphere with the standard material. -/
def sphere (radius : Scalar) : Build Node := shape (.sphere radius) .standard

/-- A plane with the standard material. -/
def plane (normal : Vector) : Build Node := shape (.plane normal) .standard

/-- A ground with the standard material. -/
def ground (normal : Vector) : Build Node := shape (.ground normal) .standard

end Build

end FieldShader
