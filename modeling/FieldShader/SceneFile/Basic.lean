import FieldShader.Scene.Description

/-!
# Scene files

A scene file is a description of a scene with the version of the program that wrote it and an
optional name.
-/

namespace FieldShader

/-- The version that new scene files carry. -/
def version : String := "0.1.0"

/-- A scene as it is stored. -/
structure SceneFile where
  /-- The version of the program that wrote the file. -/
  version : String
  /-- The name of the scene. -/
  name : Option String
  /-- The scene. -/
  root : Description

namespace SceneFile

/-- A file without a name. -/
def ofDescription (root : Description) : SceneFile := ⟨FieldShader.version, none, root⟩

/-- The file with the given name. -/
def withName (f : SceneFile) (name : String) : SceneFile := { f with name := some name }

/-- Equality of two files; numbers are compared as numbers. -/
def agrees (f g : SceneFile) : Bool :=
  f.version = g.version && f.name = g.name && f.root.agrees g.root

end SceneFile

end FieldShader
