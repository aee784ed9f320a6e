import FieldShader.Json.Document
import FieldShader.SceneFile.Basic

/-!
# Writing scene files

The document of every part of a scene file. A scalar is written as a number or a string and a vector
as an array of three scalars or a string. A description starts with its type; a material that nobody
gave is left out, and so is the name of a scene that has none.
-/

namespace FieldShader

/-- The document of a scalar. -/
def Scalar.document : Scalar → Document
  | .number value => .number value
  | .raw source => .text source

/-- The document of a vector. -/
def Vector.document : Vector → Document
  | .components x y z => .list [x.document, y.document, z.document]
  | .raw source => .text source

/-- The document of a material. -/
def Material.document (m : Material) : Document := .object [("color", m.color.document)]

/-- The name and the document of a primitive's parameter. -/
def Primitive.parameter : Primitive → String × Document
  | .sphere radius => ("radius", radius.document)
  | .plane normal | .ground normal => ("normal", normal.document)

/-- The document of a primitive that stands alone. -/
def Primitive.document (p : Primitive) : Document := .object [(p.name, .object [p.parameter])]

/-- The document of a mapping. -/
def Mapping.document : Mapping → Document
  | .translate offset => .object [("translate", offset.document)]

namespace Description

mutual

/-- The document of a description. -/
def document : Description → Document
  | .shape primitive given =>
    .object (("type", .text primitive.name) :: primitive.parameter ::
      match given with
      | none => []
      | some m => [("material", m.document)])
  | .material color => .object [("type", .text "material"), ("color", color.document)]
  | .translate offset child =>
    .object [("type", .text "translate"), ("offset", offset.document), ("child", child.document)]
  | .operator kind smoothing children =>
    .object [("type", .text kind.name), ("smoothing", smoothing.document),
      ("children", .list (documents children))]

/-- The documents of several descriptions. -/
def documents : List Description → List Document
  | [] => []
  | d :: ds => d.document :: documents ds

end

end Description

namespace SceneFile

/-- The document of a scene file. -/
def document (f : SceneFile) : Document :=
  .object (("version", .text f.version) ::
    (match f.name with
      | none => []
      | some name => [("name", .text name)]) ++ [("root", f.root.document)])

/-- The text of a scene file, without a line end after it. -/
def toString (f : SceneFile) : String := f.document.pretty

end SceneFile

end FieldShader
