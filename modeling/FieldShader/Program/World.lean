import FieldShader.SceneFile.Decode
import FieldShader.SceneFile.Encode

/-!
# Files

What the program sees of the file system is a `World`: the bytes of every path that can be read and
the reason why a path cannot be written. Loading a scene file and saving one are stated against a
world. A directory can be opened like a file, and fails only when it is read, as a scene that cannot
be decoded.
-/

namespace FieldShader

/-- Why a file cannot be read or written. -/
inductive FileFault where
  | notFound
  | notDirectory
  | isDirectory
  | nameTooLong
  | noSpace
  /-- The path holds the character that ends a path for the system. -/
  | holdsNul
  /-- The bytes of the file are no text. -/
  | notText
  /-- Any other reason, in the words of the system. -/
  | other (text : String)
deriving DecidableEq

namespace FileFault

/-- The fault as a message. -/
def message : FileFault → String
  | .notFound => "No such file or directory (os error 2)"
  | .notDirectory => "Not a directory (os error 20)"
  | .isDirectory => "Is a directory (os error 21)"
  | .nameTooLong => "File name too long (os error 36)"
  | .noSpace => "No space left on device (os error 28)"
  | .holdsNul => "file name contained an unexpected NUL byte"
  | .notText => "stream did not contain valid UTF-8"
  | .other text => text

end FileFault

/-- What the program sees of the file system. -/
structure World where
  /-- The bytes of a file. -/
  read : String → Except FileFault (List UInt8)
  /-- Why a path cannot be written, if it cannot. -/
  refuses : String → Option FileFault

namespace World

/-- The text of a file. -/
def readText (w : World) (path : String) : Except FileFault String := do
  match Symbol.text? (← w.read path) with
  | some text => return text
  | none => throw .notText

end World

/-- Why a scene cannot be had from a file, or not be put into one. -/
inductive SceneError where
  /-- The file cannot be opened or written. -/
  | file (f : FileFault)
  /-- The file is open and cannot be read. -/
  | contents (f : FileFault)
  /-- The text is no scene file. -/
  | text (f : Fault)
  /-- The scene cannot be built. -/
  | scene (e : BuildError)
deriving DecidableEq

namespace SceneError

/-- The error as a message. -/
def message : SceneError → String
  | .file f => "IO error: " ++ f.message
  | .contents f => "Serialization error: " ++ f.message
  | .text f => "Serialization error: " ++ f.message
  | .scene e => "Invalid scene: " ++ e.message

end SceneError

namespace SceneFile

/-- The scene file at a path. -/
def load (w : World) (path : String) : Except SceneError SceneFile :=
  match w.read path with
  | .error .isDirectory => .error (.contents .isDirectory)
  | .error f => .error (.file f)
  | .ok bytes =>
    match ofBytes bytes with
    | .error f => .error (.text f)
    | .ok file => .ok file

/-- The text that saving the file writes to a path. -/
def save (w : World) (file : SceneFile) (path : String) : Except SceneError String :=
  match w.refuses path with
  | some f => .error (.file f)
  | none => .ok file.toString

/-- Builds the scene of the file with identifiers from an allocator on, and answers with the
allocator after it, also when it fails. -/
def build (file : SceneFile) (a : Allocator) : Except SceneError Node × Allocator :=
  match file.root.build.run a with
  | .ok n a' => (.ok n, a')
  | .error e a' => (.error (.scene e), a')

end SceneFile

end FieldShader
