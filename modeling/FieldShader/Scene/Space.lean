import FieldShader.Scene.Node

/-!
# Spaces

A space is the chain of mappings between the position of a node in its tree and world space. It
grows by one mapping at every transform on the way down, and a position is mapped by the innermost
mapping first and by the outermost one last.
-/

namespace FieldShader

/-- The mappings from a node's own space out to world space. -/
structure Space where
  /-- The mappings, the innermost first. -/
  mappings : List Mapping
deriving DecidableEq

namespace Space

/-- World space. -/
def world : Space := ⟨[]⟩

/-- The space inside a transform. -/
def push (s : Space) (m : Mapping) : Space := ⟨m :: s.mappings⟩

/-- The space inside the given transforms, the outermost first. -/
def ofList (mappings : List Mapping) : Space := mappings.foldl push world

/-- The position in world space of a position in this space. -/
def apply (s : Space) (position : Expr) : Expr :=
  s.mappings.foldl (fun mapped m => m.apply mapped) position

/-- The number of mappings. -/
def depth (s : Space) : Nat := s.mappings.length

/-- The origin of this space as a position in world space. -/
def origin (s : Space) : Expr := s.apply Vector.zero.toExpr

@[simp] theorem apply_world (e : Expr) : world.apply e = e := rfl

@[simp] theorem apply_push (s : Space) (m : Mapping) (e : Expr) :
    (s.push m).apply e = s.apply (m.apply e) := rfl

/-- The innermost mapping runs first. -/
example : ((ofList [.translate (.raw "a"), .translate (.raw "b")]).apply
    (.position "p")).render = "((p + (b)) + (a))" := by decide

end Space

end FieldShader
