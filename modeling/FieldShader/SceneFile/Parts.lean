import FieldShader.Json.Value
import FieldShader.Scene.Node

/-!
# Parts of a scene file

How the values inside a scene are read. A scalar is a number or a string, a vector three scalars or
a string; for these the value is read to its end before it is looked at. A record is an object,
whose unknown members are passed over, or an array of its fields in order. A variant is a bare word,
or an object with one member, named by that word. Values inside a description are first kept and
then read by the `ofJson` functions; the others are read as their tokens are met, by the `read`
functions.
-/

namespace FieldShader

/-! ## Scalars and vectors -/

namespace Scalar

/-- The scalar a value stands for. -/
def ofJson? : JsonValue → Option Scalar
  | .number n => some (.number n.toSingle)
  | .text s => some (.raw s)
  | _ => none

/-- The scalar a value stands for, or a fault. -/
def ofJson (v : JsonValue) : Except Fault Scalar :=
  match ofJson? v with
  | some s => .ok s
  | none => .error (.noForm "ScalarRepr")

/-- Reads a scalar. -/
def read (room : Nat) : Reader Scalar := fun tokens => do
  let (v, rest) ← JsonValue.read room tokens
  return (← ofJson v, rest)

end Scalar

namespace Vector

/-- The vector a value stands for. -/
def ofJson? : JsonValue → Option Vector
  | .text s => some (.raw s)
  | .list [x, y, z] => do
    return .components (← Scalar.ofJson? x) (← Scalar.ofJson? y) (← Scalar.ofJson? z)
  | _ => none

/-- The vector a value stands for, or a fault. -/
def ofJson (v : JsonValue) : Except Fault Vector :=
  match ofJson? v with
  | some s => .ok s
  | none => .error (.noForm "VectorRepr")

/-- Reads a vector. -/
def read (room : Nat) : Reader Vector := fun tokens => do
  let (v, rest) ← JsonValue.read room tokens
  return (← ofJson v, rest)

end Vector

/-! ## Records -/

/-- The kind of value that starts with the token. -/
def Token.found : Token → Except Fault Found
  | .null => .ok .null
  | .bool b => .ok (.bool b)
  | .number n => n.map .number
  | .text s => s.map .text
  | .openList => .ok .sequence
  | .openObject => .ok .map
  | .brokenText used _ | .broken used _ => .error used
  | .closeList | .closeObject | .comma | .colon => .error .expectedValue

namespace Reader

/-- Refuses the value that starts with the token. -/
def refuse {α : Type} (t : Token) (expected : String) : Except Fault α := do
  throw (.invalidType (← t.found) expected)

/-- Reads a record of one field, which has to be there. -/
def record {α : Type} (expected field : String) (item : Nat → Reader α) : (room : Nat) → Reader α
  | _, [] => .error .endOfValue
  | 0, .openList :: _ | 0, .openObject :: _ => .error .tooDeep
  | room + 1, .openList :: rest => do
    match ← nextElement true rest with
    | (false, _) => throw (.invalidLength 0 (expected ++ " with 1 element"))
    | (true, rest) =>
      let (x, rest) ← item room rest
      let ((), rest) ← closeList rest
      return (x, rest)
  | room + 1, .openObject :: rest => do
    let member (got : Option α) (k : String) : Reader (Option α) := fun tokens =>
      if k = field then
        if got.isSome then .error (.duplicateField field)
        else do
          let ((), tokens) ← colon tokens
          let (x, tokens) ← item room tokens
          return (some x, tokens)
      else do
        let ((), tokens) ← colon tokens
        let ((), tokens) ← skip tokens
        return (got, tokens)
    match ← members member (rest.length + 1) true none rest with
    | (none, _) => throw (.missingField field)
    | (some x, rest) =>
      let ((), rest) ← closeObject rest
      return (x, rest)
  | _, t :: _ => refuse t expected

/-! ## Variants -/

/-- The choice of the given name. -/
def choose {α : Type} (choices : List (String × α)) (name : String) : Except Fault α :=
  match choices.lookup name with
  | some x => .ok x
  | none => .error (.unknownVariant name (choices.map (·.1)))

/-- Reads the name of a variant where it stands as a value. -/
def identifier : Reader String
  | [] => .error .endOfValue
  | .text s :: rest => do return (← s, rest)
  | t :: _ => refuse t "variant identifier"

/-- Reads the name of a variant where it stands as a key. -/
def variantKey : Reader String
  | [] => .error .endOfObject
  | .closeObject :: _ => .error .expectedValue
  | tokens => key tokens

/-- Reads a variant: a bare word, or one member whose key is the word. -/
def variant {α β : Type} (choices : List (String × α)) (bare : α → Except Fault β)
    (contents : α → Nat → Reader β) : (room : Nat) → Reader β
  | _, [] => .error .endOfValue
  | _, .text s :: rest => do return (← bare (← choose choices (← s)), rest)
  | _, .brokenText used _ :: _ => .error used
  | 0, .openObject :: _ => .error .tooDeep
  | room + 1, .openObject :: rest => do
    let (name, rest) ← variantKey rest
    let x ← choose choices name
    let ((), rest) ← colon rest
    let (y, rest) ← contents x room rest
    match rest with
    | .closeObject :: rest => return (y, rest)
    | [] => throw .endOfObject
    | _ => throw .expectedValue
  | _, _ => .error .expectedValue

/-- Reads a variant without contents; the member form has the contents `null`. -/
def word {α : Type} (choices : List (String × α)) : (room : Nat) → Reader α :=
  variant choices .ok fun x _ tokens =>
    match tokens with
    | [] => .error .endOfValue
    | .null :: rest => .ok (x, rest)
    | t :: _ => refuse t "unit"

end Reader

/-! ## The parts -/

namespace Material

/-- The material a value stands for. -/
def ofJson : JsonValue → Except Fault Material
  | .object members => do
    let member (color? : Option Vector) : String × JsonValue → Except Fault (Option Vector)
      | (k, v) =>
        if k = "color" then
          if color?.isSome then throw (.duplicateField "color")
          else return some (← Vector.ofJson v)
        else return color?
    match ← members.foldlM member none with
    | some color => return ⟨color⟩
    | none => throw (.missingField "color")
  | .list [] => .error (.invalidLength 0 "struct Material with 1 element")
  | .list (v :: rest) => do
    let color ← Vector.ofJson v
    if rest.isEmpty then return ⟨color⟩
    else throw (.invalidLength (rest.length + 1) "1 element in sequence")
  | v => .error (.invalidType v.found "struct Material")

/-- Reads a material. -/
def read (room : Nat) : Reader Material := fun tokens => do
  let (color, rest) ← Reader.record "struct Material" "color" Vector.read room tokens
  return (⟨color⟩, rest)

end Material

/-- Reads the name of a property. -/
def Property.read : (room : Nat) → Reader Property :=
  Reader.word (Property.all.map fun p => (p.tag, p))

/-- Reads the name of a type. -/
def GlslType.read : (room : Nat) → Reader GlslType :=
  Reader.word (GlslType.all.map fun t => (t.keyword, t))

/-- Reads the name of an operator. -/
def OperatorKind.read : (room : Nat) → Reader OperatorKind :=
  Reader.word (OperatorKind.all.map fun k => (k.name, k))

namespace Primitive

/-- Reads the parameter of a primitive from a record of one field. -/
def readRecord {α : Type} (expected field : String) (make : α → Primitive)
    (item : Nat → Reader α) (room : Nat) : Reader Primitive := fun tokens => do
  let (x, rest) ← Reader.record expected field item room tokens
  return (make x, rest)

/-- Reads a primitive. -/
def read : (room : Nat) → Reader Primitive :=
  Reader.variant
    [("sphere", readRecord "struct variant Primitive::Sphere" "radius" .sphere Scalar.read),
      ("plane", readRecord "struct variant Primitive::Plane" "normal" .plane Vector.read),
      ("ground", readRecord "struct variant Primitive::Ground" "normal" .ground Vector.read)]
    (fun _ => .error (.invalidType .unitVariant "struct variant"))
    (fun contents room => contents room)

end Primitive

namespace Mapping

/-- Reads a mapping. -/
def read : (room : Nat) → Reader Mapping :=
  Reader.variant [("translate", ())]
    (fun _ => .error (.invalidType .unitVariant "newtype variant"))
    (fun _ room tokens => do
      let (offset, rest) ← Vector.read room tokens
      return (.translate offset, rest))

end Mapping

end FieldShader
