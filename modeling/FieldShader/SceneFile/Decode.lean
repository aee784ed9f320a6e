import FieldShader.SceneFile.Basic
import FieldShader.SceneFile.Parts

/-!
# Reading scene files

A description is an object whose member `type` names the form of the node; the other members are its
fields, in any order. It may also be an array of the type and the fields in order. The outermost
description is read to its end with all its members kept, except that the type is checked where it
is met; then the fields are read from the kept members in the order of the text, descriptions inside
it in the same way. Only inside may the type be given by its index.

A scene file is a record of a version, an optional name and the outermost description.
-/

namespace FieldShader

namespace Description

/-! ## Forms and fields -/

/-- The forms of a description. -/
inductive Form where
  | sphere
  | plane
  | ground
  | material
  | translate
  | operator (kind : OperatorKind)
deriving DecidableEq

/-- The fields of descriptions. -/
inductive Field where
  | radius
  | normal
  | material
  | color
  | offset
  | child
  | smoothing
  | children
deriving DecidableEq

/-- The name of a field. -/
def Field.name : Field → String
  | .radius => "radius"
  | .normal => "normal"
  | .material => "material"
  | .color => "color"
  | .offset => "offset"
  | .child => "child"
  | .smoothing => "smoothing"
  | .children => "children"

namespace Form

/-- All forms, in the order of their indices. -/
def all : List Form :=
  [.sphere, .plane, .ground, .material, .translate, .operator .union, .operator .difference,
    .operator .cut]

/-- The word for the form. -/
def name : Form → String
  | .sphere => "sphere"
  | .plane => "plane"
  | .ground => "ground"
  | .material => "material"
  | .translate => "translate"
  | .operator kind => kind.name

/-- The word for the form in messages about its fields. -/
def title : Form → String
  | .sphere => "Sphere"
  | .plane => "Plane"
  | .ground => "Ground"
  | .material => "Material"
  | .translate => "Translate"
  | .operator .union => "Union"
  | .operator .difference => "Difference"
  | .operator .cut => "Cut"

/-- The fields of the form, in order. -/
def fields : Form → List Field
  | .sphere => [.radius, .material]
  | .plane | .ground => [.normal, .material]
  | .material => [.color]
  | .translate => [.offset, .child]
  | .operator _ => [.smoothing, .children]

/-- Whether a field of the form may be left out. -/
def optional : Form → Field → Bool
  | _, .material => true
  | .ground, .normal => true
  | _, _ => false

/-- The field of the form with the given name. -/
def field? (form : Form) (name : String) : Option Field := form.fields.find? (·.name = name)

/-- The number of the form's fields in words of a message. -/
def elementCount (form : Form) : String :=
  if form.fields.length = 1 then "1 element" else toString form.fields.length ++ " elements"

/-- The names of the forms. -/
def choices : List (String × Form) := all.map fun form => (form.name, form)

/-- The form that the type of a description inside another one names. -/
def ofJson : JsonValue → Except Fault Form
  | .text s => Reader.choose choices s
  | .number (.integer (.ofNat i)) =>
    match all[i]? with
    | some form => .ok form
    | none => .error (.invalidIndex i all.length)
  | v => .error (.invalidType v.found "variant identifier")

end Form

/-! ## Fields that are filled in -/

/-- The fields that were met so far. -/
structure Draft where
  radius : Option Scalar := none
  normal : Option Vector := none
  material : Option (Option Material) := none
  color : Option Vector := none
  offset : Option Vector := none
  child : Option Description := none
  smoothing : Option Scalar := none
  children : Option (List Description) := none

namespace Draft

/-- Whether a field was met. -/
def has (d : Draft) : Field → Bool
  | .radius => d.radius.isSome
  | .normal => d.normal.isSome
  | .material => d.material.isSome
  | .color => d.color.isSome
  | .offset => d.offset.isSome
  | .child => d.child.isSome
  | .smoothing => d.smoothing.isSome
  | .children => d.children.isSome

/-- Reads the value of a field; the descriptions that the value may stand for are read by the
last two arguments. -/
def fill (d : Draft) (f : Field) (v : JsonValue) (child : Unit → Except Fault Description)
    (children : Unit → Except Fault (List Description)) : Except Fault Draft :=
  match f with
  | .radius => do return { d with radius := some (← Scalar.ofJson v) }
  | .normal => do return { d with normal := some (← Vector.ofJson v) }
  | .material =>
    match v with
    | .null => .ok { d with material := some none }
    | v => do return { d with material := some (some (← Material.ofJson v)) }
  | .color => do return { d with color := some (← Vector.ofJson v) }
  | .offset => do return { d with offset := some (← Vector.ofJson v) }
  | .child => do return { d with child := some (← child ()) }
  | .smoothing => do return { d with smoothing := some (← Scalar.ofJson v) }
  | .children => do return { d with children := some (← children ()) }

/-- A field that has to be there. -/
def require {α : Type} (f : Field) : Option α → Except Fault α
  | some x => .ok x
  | none => .error (.missingField f.name)

/-- The description of the given form, when all its fields are there. -/
def finish (d : Draft) : Form → Except Fault Description
  | .sphere => do
    return .shape (.sphere (← require .radius d.radius)) (d.material.getD none)
  | .plane => do
    return .shape (.plane (← require .normal d.normal)) (d.material.getD none)
  | .ground => .ok (.shape (.ground (d.normal.getD .up)) (d.material.getD none))
  | .material => do return .material (← require .color d.color)
  | .translate => do
    return .translate (← require .offset d.offset) (← require .child d.child)
  | .operator kind => do
    return .operator kind (← require .smoothing d.smoothing) (← require .children d.children)

end Draft

/-! ## Kept values -/

/-- The form that the member `type` names, the only one of that name. -/
def formOf (members : List (String × JsonValue)) : Except Fault Form := do
  let member (form? : Option Form) : String × JsonValue → Except Fault (Option Form)
    | (k, v) =>
      if k = "type" then
        if form?.isSome then throw (.duplicateField "type")
        else return some (← Form.ofJson v)
      else return form?
  match ← members.foldlM member none with
  | some form => return form
  | none => throw (.missingField "type")

/-- Checks that the fields that are left may be left out; the first of them has the given
position. -/
def leaveOut (form : Form) (position : Nat) (left : List Field) : Except Fault Unit :=
  match left.findIdx? (!form.optional ·) with
  | none => .ok ()
  | some i =>
    .error (.invalidLength (position + i)
      ("struct variant SceneDesc::" ++ form.title ++ " with " ++ form.elementCount))

mutual

/-- The description that a kept value stands for. -/
def ofJson : JsonValue → Except Fault Description
  | .object members => do
    let form ← formOf members
    (← ofMembers form {} members).finish form
  | .list [] => .error (.missingField "type")
  | .list (v :: items) => do
    let form ← Form.ofJson v
    (← ofItems form 0 form.fields {} items).finish form
  | v => .error (.invalidType v.found "internally tagged enum SceneDesc")

/-- Fills in the fields of a form from the members of an object, in order; other members are of no
concern. -/
def ofMembers (form : Form) (d : Draft) : List (String × JsonValue) → Except Fault Draft
  | [] => .ok d
  | (k, v) :: rest =>
    match form.field? k with
    | none => ofMembers form d rest
    | some f =>
      if d.has f then .error (.duplicateField f.name)
      else do
        let d ← d.fill f v (fun _ => ofJson v) (fun _ =>
          match v with
          | .list items => ofAll items
          | v => .error (.invalidType v.found "a sequence"))
        ofMembers form d rest

/-- Fills in the given fields of a form, of which the first has the given position, from the items
of an array. -/
def ofItems (form : Form) (position : Nat) (left : List Field) (d : Draft) :
    List JsonValue → Except Fault Draft
  | [] => do
    leaveOut form position left
    return d
  | v :: rest =>
    match left with
    | [] =>
      .error (.invalidLength (position + (rest.length + 1)) (form.elementCount ++ " in sequence"))
    | f :: left => do
      let d ← d.fill f v (fun _ => ofJson v) (fun _ =>
        match v with
        | .list items => ofAll items
        | v => .error (.invalidType v.found "a sequence"))
      ofItems form (position + 1) left d rest

/-- The descriptions that kept values stand for. -/
def ofAll : List JsonValue → Except Fault (List Description)
  | [] => .ok []
  | v :: rest => do
    let d ← ofJson v
    return d :: (← ofAll rest)

end

/-! ## The outermost description -/

/-- Reads the form of the outermost description. -/
def readForm : Reader Form := fun tokens => do
  let (name, rest) ← Reader.identifier tokens
  return (← Reader.choose Form.choices name, rest)

/-- Reads the outermost description. -/
def read : (room : Nat) → Reader Description
  | _, [] => .error .endOfValue
  | 0, .openList :: _ | 0, .openObject :: _ => .error .tooDeep
  | room + 1, .openList :: rest => do
    match ← Reader.nextElement true rest with
    | (false, _) => throw (.missingField "type")
    | (true, rest) =>
      let (form, rest) ← readForm rest
      let (items, rest) ← Reader.elements (JsonValue.read room) (rest.length + 1) false rest
      let ((), rest) ← Reader.closeList rest
      return (← (← ofItems form 0 form.fields {} items).finish form, rest)
  | room + 1, .openObject :: rest => do
    let member (state : Option Form × List (String × JsonValue)) (k : String) :
        Reader (Option Form × List (String × JsonValue)) := fun tokens =>
      if k = "type" then
        if state.1.isSome then .error (.duplicateField "type")
        else do
          let ((), tokens) ← Reader.colon tokens
          let (form, tokens) ← readForm tokens
          return ((some form, state.2), tokens)
      else do
        let ((), tokens) ← Reader.colon tokens
        let (v, tokens) ← JsonValue.read room tokens
        return ((state.1, (k, v) :: state.2), tokens)
    match ← Reader.members member (rest.length + 1) true (none, []) rest with
    | ((none, _), _) => throw (.missingField "type")
    | ((some form, kept), rest) =>
      let ((), rest) ← Reader.closeObject rest
      return (← (← ofMembers form {} kept.reverse).finish form, rest)
  | _, t :: _ => Reader.refuse t "internally tagged enum SceneDesc"

end Description

/-! ## Scene files -/

/-- The number of arrays and objects that a text may have inside each other. -/
def depthLimit : Nat := 127

namespace SceneFile

/-- Reads a string. -/
def readString : Reader String
  | [] => .error .endOfValue
  | .text s :: rest => do return (← s, rest)
  | t :: _ => Reader.refuse t "a string"

/-- Reads a string that may be `null`. -/
def readName : Reader (Option String)
  | .null :: rest => .ok (none, rest)
  | tokens => do
    let (s, rest) ← readString tokens
    return (some s, rest)

/-- The fields that were met so far. -/
structure Draft where
  version : Option String := none
  name : Option (Option String) := none
  root : Option Description := none

namespace Draft

/-- Reads one member of a scene file. -/
def member (room : Nat) (d : Draft) (k : String) : Reader Draft := fun tokens =>
  let once (met : Bool) (item : Reader Draft) : Except Fault (Draft × List Token) :=
    if met then .error (.duplicateField k)
    else do
      let ((), tokens) ← Reader.colon tokens
      item tokens
  if k = "version" then
    once d.version.isSome fun tokens => do
      let (s, rest) ← readString tokens
      return ({ d with version := some s }, rest)
  else if k = "name" then
    once d.name.isSome fun tokens => do
      let (s, rest) ← readName tokens
      return ({ d with name := some s }, rest)
  else if k = "root" then
    once d.root.isSome fun tokens => do
      let (r, rest) ← Description.read room tokens
      return ({ d with root := some r }, rest)
  else do
    let ((), tokens) ← Reader.colon tokens
    let ((), tokens) ← Reader.skip tokens
    return (d, tokens)

/-- The scene file, when its fields are there. -/
def finish (d : Draft) : Except Fault SceneFile := do
  match d.version, d.root with
  | none, _ => throw (.missingField "version")
  | _, none => throw (.missingField "root")
  | some version, some root => return ⟨version, d.name.getD none, root⟩

end Draft

/-- Reads the fields of a scene file from an array, of which the opening bracket is passed. The name
may be left out only together with everything after it, and so not at all. -/
def readItems (room : Nat) : Reader SceneFile := fun tokens => do
  let short (n : Nat) : Fault := .invalidLength n "struct SceneFile with 3 elements"
  let (true, tokens) ← Reader.nextElement true tokens | throw (short 0)
  let (version, tokens) ← readString tokens
  let (true, tokens) ← Reader.nextElement false tokens | throw (short 2)
  let (name, tokens) ← readName tokens
  let (true, tokens) ← Reader.nextElement false tokens | throw (short 2)
  let (root, tokens) ← Description.read room tokens
  let ((), tokens) ← Reader.closeList tokens
  return (⟨version, name, root⟩, tokens)

/-- Reads a scene file. -/
def read : (room : Nat) → Reader SceneFile
  | _, [] => .error .endOfValue
  | 0, .openList :: _ | 0, .openObject :: _ => .error .tooDeep
  | room + 1, .openList :: rest => readItems room rest
  | room + 1, .openObject :: rest => do
    let (d, rest) ← Reader.members (Draft.member room) (rest.length + 1) true {} rest
    let file ← d.finish
    let ((), rest) ← Reader.closeObject rest
    return (file, rest)
  | _, t :: _ => Reader.refuse t "struct SceneFile"

/-- The scene file of a sequence of symbols. -/
def ofSymbols (s : List Symbol) : Except Fault SceneFile := Reader.whole (read depthLimit) s

/-- The scene file of a text. -/
def ofString (s : String) : Except Fault SceneFile := ofSymbols (Symbol.ofString s)

/-- The scene file of the bytes of a file. -/
def ofBytes (bytes : List UInt8) : Except Fault SceneFile := ofSymbols (Symbol.decode bytes)

end SceneFile

end FieldShader
