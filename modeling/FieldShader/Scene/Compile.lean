import FieldShader.Glsl.Listing
import FieldShader.Scene.Emission

/-!
# Compiling into a listing

The declarations of a node or a material, written to a listing at its depth. What was emitted
before a failure stays written.
-/

namespace FieldShader

/-- Writes an emission, and answers with its failure. -/
def Emission.writeTo (e : Emission) (l : Listing) : Listing × Option CompileError :=
  (l.writeAll (e.declarations.map Declaration.render), e.failure)

namespace Node

/-- Compiles a property of the node in a space into a listing. -/
def compile (n : Node) (space : Space) (p : Property) (l : Listing) :
    Listing × Option CompileError :=
  (n.emit space p).writeTo l

/-- The lines of a property with its public alias, at depth zero. -/
def compileProperty (n : Node) (p : Property) : Except CompileError (List String) :=
  (n.publish p).map (·.map Declaration.render)

end Node

namespace Material

/-- Compiles a property of the material under an identifier into a listing. -/
def compile (m : Material) (id : Nat) (p : Property) (l : Listing) :
    Listing × Option CompileError :=
  (m.emit id p).writeTo l

end Material

end FieldShader
