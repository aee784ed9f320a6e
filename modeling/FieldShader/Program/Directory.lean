import FieldShader.Program.World
import FieldShader.Text.Lines

/-!
# Directories in memory

A `Directory` holds files in memory, those below the working directory and any others, and is a
`World`. Paths are walked as a system walks them (`Directory.walk`): every component but the last
has to lead to a directory that is there, so that going up again does not make up for a name that
is missing. Nothing is known of the directories above the working directory but that they exist.

New files can be created in every directory that is there. A slash at the end of a path says that
the name before it is a directory: a file is not found there to be read, and none is created.
-/

namespace FieldShader

/-! ## Places -/

/-- The components of a path, which are separated by slashes. -/
def components (path : String) : List String :=
  ((pieces '/' path.toList).filter (· ≠ [])).map String.ofList

/-- Where the names of a place start. -/
inductive Origin where
  /-- So many levels above the working directory. -/
  | above (levels : Nat)
  /-- The root of the file system. -/
  | root
deriving DecidableEq

/-- A place in the file system: where its names start, and the names that lead from there to it. -/
structure Place where
  origin : Origin
  names : List String
deriving DecidableEq

namespace Place

/-- The working directory. -/
def here : Place := ⟨.above 0, []⟩

/-- The root of the file system. -/
def root : Place := ⟨.root, []⟩

/-- The device that is always empty. -/
def null : Place := ⟨.root, ["dev", "null"]⟩

/-- The device that nothing fits into. -/
def full : Place := ⟨.root, ["dev", "full"]⟩

/-- The directory that a place is in; the root is in itself. -/
def parent (p : Place) : Place :=
  match p.origin, p.names with
  | .above n, [] => ⟨.above (n + 1), []⟩
  | origin, names => ⟨origin, names.dropLast⟩

/-- The place of a name in a directory. -/
def child (p : Place) (name : String) : Place := ⟨p.origin, p.names ++ [name]⟩

/-- Whether the second place is somewhere in the first. -/
def contains (p q : Place) : Bool :=
  p.origin = q.origin && p.names.length < q.names.length && p.names.isPrefixOf q.names

/-- Whether there is a directory at the place in every file system. -/
def isStanding (p : Place) : Bool :=
  p.names = [] || p.origin = .root && (p.names = ["dev"] || p.names = ["tmp"])

/-- Whether the last name of the place is longer than a name can be. -/
def isTooLong (p : Place) : Bool := (p.names.getLast?.getD "").utf8ByteSize > 255

/-- The place of a path below the working directory. -/
def below (path : String) : Place := ⟨.above 0, (components path).filter (· ≠ ".")⟩

/-- The path of a place below the working directory. -/
def path? (p : Place) : Option String :=
  if p.origin = .above 0 then some (String.intercalate "/" p.names) else none

end Place

/-! ## Directories -/

/-- Files in memory, by their places. -/
structure Directory where
  files : List (Place × List UInt8)

/-- What is at a place. -/
inductive Entry where
  | directory
  | file (bytes : List UInt8)
deriving DecidableEq

/-- What the last component of a path stands for, in a directory that is there. -/
inductive Target where
  /-- A directory that the component itself names. -/
  | directory
  /-- What is at a place, or can be created there; the path may end with a slash. -/
  | entry (place : Place) (slash : Bool)
deriving DecidableEq

namespace Directory

/-- The directory with the given files below the working directory. -/
def ofFiles (files : List (String × List UInt8)) : Directory :=
  ⟨files.map fun (path, bytes) => (.below path, bytes)⟩

/-- What is at a place, if anything is. -/
def entry? (d : Directory) (p : Place) : Except FileFault (Option Entry) :=
  if p.isTooLong then .error .nameTooLong
  else if p.isStanding || d.files.any (p.contains ·.1) then .ok (some .directory)
  else if p = .null ∨ p = .full then .ok (some (.file []))
  else .ok ((d.files.lookup p).map .file)

/-- The directory that components lead to from a directory. -/
def walk (d : Directory) (p : Place) : List String → Except FileFault Place
  | [] => .ok p
  | name :: rest =>
    if name = "." then d.walk p rest
    else if name = ".." then d.walk p.parent rest
    else
      match d.entry? (p.child name) with
      | .error f => .error f
      | .ok none => .error .notFound
      | .ok (some (.file _)) => .error .notDirectory
      | .ok (some .directory) => d.walk (p.child name) rest

/-- What a path leads to. -/
def locate (d : Directory) (path : String) : Except FileFault Target :=
  let symbols := path.toList
  let names := components path
  if '\x00' ∈ symbols then .error .holdsNul
  else if symbols = [] then .error .notFound
  else if path.utf8ByteSize ≥ 4096 then .error .nameTooLong
  else
    match d.walk (if symbols.head? = some '/' then .root else .here) names.dropLast with
    | .error f => .error f
    | .ok p =>
      match names.getLast? with
      | none | some "." | some ".." => .ok .directory
      | some name => .ok (.entry (p.child name) (symbols.getLast? = some '/'))

/-- The bytes of the file at a path. -/
def read (d : Directory) (path : String) : Except FileFault (List UInt8) :=
  match d.locate path with
  | .error f => .error f
  | .ok .directory => .error .isDirectory
  | .ok (.entry p slash) =>
    match d.entry? p with
    | .error f => .error f
    | .ok none => .error .notFound
    | .ok (some .directory) => .error .isDirectory
    | .ok (some (.file bytes)) => if slash then .error .notDirectory else .ok bytes

/-- Why a path cannot be written, if it cannot. -/
def refuses (d : Directory) (path : String) : Option FileFault :=
  match d.locate path with
  | .error f => some f
  | .ok .directory | .ok (.entry _ true) => some .isDirectory
  | .ok (.entry p false) =>
    match d.entry? p with
    | .error f => some f
    | .ok (some .directory) => some .isDirectory
    | .ok _ => if p = .full then some .noSpace else none

/-- The directory as a world. -/
def world (d : Directory) : World := ⟨d.read, d.refuses⟩

/-- The directory after a text is written to a path that is not refused. -/
def write (d : Directory) (path text : String) : Directory :=
  match d.locate path with
  | .ok (.entry p _) =>
    if p = .null then d else ⟨(p, text.toUTF8.toList) :: d.files.filter (·.1 ≠ p)⟩
  | _ => d

/-- The files below the working directory, by their paths. -/
def filesBelow (d : Directory) : List (String × List UInt8) :=
  d.files.filterMap fun (p, bytes) => p.path?.map (·, bytes)

/-- Going down and up again, a slash after a file, a name that is missing on the way; then a new
file, a new directory, a file as a directory, and the missing name again. -/
example :
    let d := ofFiles [("f", [1]), ("d/g", [])]
    ["./d/../f", "f/", "no/../f"].map (fun path => (d.read path).toOption) =
        [some [1], none, none] ∧
      ["d/new", "new/", "f/.", "no/../new"].map d.refuses =
        [none, some .isDirectory, some .notDirectory, some .notFound] := by decide +kernel

end Directory

end FieldShader
