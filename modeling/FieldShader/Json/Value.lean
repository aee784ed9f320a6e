import FieldShader.Json.Token

/-!
# Reading JSON values

`JsonValue.read` reads one value from the front of a list of tokens, keeping every member of an
object in the order of the text, repeated keys included. Arrays and objects may be nested up to a
given depth, which is also what the recursion runs on. `skip` passes over a value whose contents do
not matter: it looks at the punctuation only, with no bound on the depth and with fewer faults.

The punctuation of arrays and objects is read by `nextElement`, `nextMember`, `closeList` and
`closeObject`, which every reader of the library shares, so that the first fault in the text is the
one that is reported.
-/

namespace FieldShader

/-- Reads something from the front of a list of tokens and answers with the tokens after it. -/
abbrev Reader (α : Type) := List Token → Except Fault (α × List Token)

namespace Reader

/-! ## Punctuation -/

/-- Moves to the next element of an array: whether there is one, and the tokens from it, or from
the closing bracket, on. The first element follows the opening bracket and every other a comma. -/
def nextElement (first : Bool) : Reader Bool
  | [] => .error .endOfList
  | .closeList :: rest => .ok (false, .closeList :: rest)
  | .comma :: rest =>
    if first then .ok (true, .comma :: rest)
    else
      match rest with
      | [] => .error .endOfValue
      | .closeList :: _ => .error .trailingComma
      | _ => .ok (true, rest)
  | tokens => if first then .ok (true, tokens) else .error .expectedListEnd

/-- Reads the closing bracket of an array. -/
def closeList : Reader Unit
  | .closeList :: rest => .ok ((), rest)
  | .comma :: .closeList :: _ => .error .trailingComma
  | [] => .error .endOfList
  | _ => .error .trailingCharacters

/-- Reads a key. -/
def key : Reader String
  | .text content :: rest => do return (← content, rest)
  | .brokenText used _ :: _ => .error used
  | _ => .error .expectedKey

/-- Moves to the next member of an object: its key, and the tokens after that, or from the closing
brace on. -/
def nextMember (first : Bool) : Reader (Option String)
  | [] => .error .endOfObject
  | .closeObject :: rest => .ok (none, .closeObject :: rest)
  | .comma :: rest =>
    if first then .error .expectedKey
    else
      match rest with
      | [] => .error .endOfValue
      | .closeObject :: _ => .error .trailingComma
      | _ => do
        let (k, rest) ← key rest
        return (some k, rest)
  | tokens =>
    if first then do
      let (k, rest) ← key tokens
      return (some k, rest)
    else .error .expectedObjectEnd

/-- Reads the closing brace of an object. -/
def closeObject : Reader Unit
  | .closeObject :: rest => .ok ((), rest)
  | .comma :: _ => .error .trailingComma
  | [] => .error .endOfObject
  | _ => .error .trailingCharacters

/-- Reads the colon between a key and its value. -/
def colon : Reader Unit
  | .colon :: rest => .ok ((), rest)
  | [] => .error .endOfObject
  | _ => .error .expectedColon

/-- Reads a whole text, after which nothing follows. -/
def whole {α : Type} (item : Reader α) (s : List Symbol) : Except Fault α := do
  match ← item (Token.ofSymbols s) with
  | (x, []) => return x
  | _ => throw .trailingCharacters

/-! ## Elements and members -/

/-- Reads the elements of an array by `item`, up to its closing bracket. Each element is made of at
least one token, so the number of tokens is fuel enough. -/
def elements {α : Type} (item : Reader α) : (fuel : Nat) → (first : Bool) → Reader (List α)
  | 0, _, _ => .error .endOfList
  | fuel + 1, first, tokens => do
    match ← nextElement first tokens with
    | (false, rest) => return ([], rest)
    | (true, rest) =>
      let (x, rest) ← item rest
      let (xs, rest) ← elements item fuel false rest
      return (x :: xs, rest)

/-- Reads the members of an object up to its closing brace, from a state that each member takes on,
given its key and what follows that. Each member is made of at least one token, so the number of
tokens is fuel enough. -/
def members {σ : Type} (member : σ → String → Reader σ) :
    (fuel : Nat) → (first : Bool) → σ → Reader σ
  | 0, _, _, _ => .error .endOfObject
  | fuel + 1, first, state, tokens => do
    match ← nextMember first tokens with
    | (none, rest) => return (state, rest)
    | (some k, rest) =>
      let (state, rest) ← member state k rest
      members member fuel false state rest

end Reader

/-! ## Values that are kept -/

/-- A JSON value. -/
inductive JsonValue where
  | null
  | bool (b : Bool)
  | number (n : JsonNumber)
  | text (s : String)
  | list (items : List JsonValue)
  /-- The members in the order of the text, repeated keys included. -/
  | object (members : List (String × JsonValue))

namespace JsonValue

/-- The kind of the value. -/
def found : JsonValue → Found
  | .null => .null
  | .bool b => .bool b
  | .number n => .number n
  | .text s => .text s
  | .list _ => .sequence
  | .object _ => .map

/-- Reads a value with at most `room` arrays and objects inside each other. -/
def read : (room : Nat) → Reader JsonValue
  | _, [] => .error .endOfValue
  | _, .null :: rest => .ok (.null, rest)
  | _, .bool b :: rest => .ok (.bool b, rest)
  | _, .number n :: rest => do return (.number (← n), rest)
  | _, .text s :: rest => do return (.text (← s), rest)
  | _, .brokenText used _ :: _ => .error used
  | _, .broken used _ :: _ => .error used
  | 0, .openList :: _ => .error .tooDeep
  | 0, .openObject :: _ => .error .tooDeep
  | room + 1, .openList :: rest => do
    let (items, rest) ← Reader.elements (read room) (rest.length + 1) true rest
    let ((), rest) ← Reader.closeList rest
    return (.list items, rest)
  | room + 1, .openObject :: rest => do
    let keep (kept : List (String × JsonValue)) (k : String) : Reader (List (String × JsonValue)) :=
      fun tokens => do
        let ((), tokens) ← Reader.colon tokens
        let (v, tokens) ← read room tokens
        return ((k, v) :: kept, tokens)
    let (kept, rest) ← Reader.members keep (rest.length + 1) true [] rest
    let ((), rest) ← Reader.closeObject rest
    return (.object kept.reverse, rest)
  | _, .closeList :: _ | _, .closeObject :: _ | _, .comma :: _ | _, .colon :: _ =>
    .error .expectedValue

end JsonValue

/-! ## Values that are passed over -/

namespace Reader

/-- An array or an object that is open. -/
inductive Frame where
  | list
  | object
deriving DecidableEq

/-- What a passed-over value is waiting for: a value, or the end of the innermost open array or
object, where a comma may come instead if something precedes it. -/
inductive Expectation where
  | value
  | closing (afterValue : Bool)
deriving DecidableEq

/-- Passes over the rest of a value inside the open arrays and objects, the innermost first. A value
is looked for where the array or object does not end at once; in an object its key and colon come
first. Every round passes a token or turns to a value, so twice the number of tokens is fuel
enough. -/
def skipFrom : (fuel : Nat) → List Frame → Expectation → Reader Unit
  | 0, _, _, _ => .error .endOfValue
  | fuel + 1, frames, .value, tokens =>
    let after (rest : List Token) : Except Fault (Unit × List Token) :=
      match frames with
      | [] => .ok ((), rest)
      | _ :: _ => skipFrom fuel frames (.closing true) rest
    match tokens with
    | [] => .error .endOfValue
    | .null :: rest | .bool _ :: rest | .number _ :: rest | .text _ :: rest => after rest
    | .brokenText _ skipped :: _ | .broken _ skipped :: _ => .error skipped
    | .openList :: rest => skipFrom fuel (.list :: frames) (.closing false) rest
    | .openObject :: rest => skipFrom fuel (.object :: frames) (.closing false) rest
    | _ => .error .expectedValue
  | _ + 1, [], .closing _, tokens => .ok ((), tokens)
  | fuel + 1, frame :: outer, .closing afterValue, tokens =>
    let close (rest : List Token) : Except Fault (Unit × List Token) :=
      match outer with
      | [] => .ok ((), rest)
      | _ :: _ => skipFrom fuel outer (.closing true) rest
    let inside (rest : List Token) : Except Fault (Unit × List Token) :=
      match frame with
      | .list => skipFrom fuel (.list :: outer) .value rest
      | .object =>
        match rest with
        | .text _ :: .colon :: rest' => skipFrom fuel (.object :: outer) .value rest'
        | [.text _] => .error .endOfObject
        | .text _ :: _ => .error .expectedColon
        | .brokenText _ skipped :: _ => .error skipped
        | [] => .error .endOfObject
        | _ => .error .expectedKey
    match frame, tokens with
    | .list, [] => .error .endOfList
    | .object, [] => .error .endOfObject
    | .list, .closeList :: rest => close rest
    | .object, .closeObject :: rest => close rest
    | .list, .comma :: rest => if afterValue then inside rest else inside (.comma :: rest)
    | .object, .comma :: rest => if afterValue then inside rest else inside (.comma :: rest)
    | .list, _ => if afterValue then .error .expectedListEnd else inside tokens
    | .object, _ => if afterValue then .error .expectedObjectEnd else inside tokens

/-- Passes over a value. -/
def skip : Reader Unit := fun tokens => skipFrom (2 * tokens.length + 1) [] .value tokens

end Reader

end FieldShader
