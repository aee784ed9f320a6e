import FieldShader.Scene.Value

/-!
# Materials

A material has a color. A shape either has a material of its own or the standard one, opaque
white; the two are told apart even when the colors are equal, because a description writes down
only the materials that were given. `Finish` is that distinction.
-/

namespace FieldShader

/-- A flat surface material. -/
structure Material where
  /-- Surface color, as red, green and blue. -/
  color : Vector
deriving DecidableEq

namespace Material

/-- The material of shapes that are given none: opaque white. -/
def white : Material := ⟨.ofSingles .one .one .one⟩

/-- Equality of the colors as values. -/
def agrees (a b : Material) : Bool := a.color.agrees b.color

end Material

/-- The material of a leaf of a scene. -/
inductive Finish where
  /-- The standard material, which nobody gave. -/
  | standard
  /-- A material that was given. -/
  | custom (material : Material)
deriving DecidableEq

namespace Finish

/-- The material that the finish stands for. -/
def material : Finish → Material
  | .standard => .white
  | .custom m => m

/-- The material if it was given. -/
def custom? : Finish → Option Material
  | .standard => none
  | .custom m => some m

/-- The finish of a leaf whose material is optional. -/
def ofMaterial? : Option Material → Finish
  | none => .standard
  | some m => .custom m

/-- Whether nobody gave the material. -/
def isStandard (f : Finish) : Bool := f.custom?.isNone

@[simp] theorem custom?_ofMaterial? (m : Option Material) : (ofMaterial? m).custom? = m := by
  cases m <;> rfl

@[simp] theorem ofMaterial?_custom? (f : Finish) : ofMaterial? f.custom? = f := by
  cases f <;> rfl

end Finish

end FieldShader
