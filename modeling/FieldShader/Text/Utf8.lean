/-!
# Characters of a byte sequence

A file is a sequence of bytes that need not be text. `Symbol.decode` reads it as UTF-8 and keeps
going where it is not: a byte that starts no well-formed sequence becomes a stray symbol of its
own, and reading resumes after it. `Symbol.text?` is the text when there is no stray byte.
-/

namespace FieldShader

/-- A character, or a byte that is part of none. -/
inductive Symbol where
  | char (c : Char)
  | stray (byte : UInt8)
deriving DecidableEq

namespace Symbol

/-- The symbols of a text. -/
def ofString (s : String) : List Symbol := s.toList.map .char

/-- The number of bytes the symbol is made of. -/
def size : Symbol → Nat
  | .char c => c.utf8Size
  | .stray _ => 1

/-- The payload of a continuation byte. -/
def continuation? (b : UInt8) : Option Nat :=
  if b.toNat / 64 = 2 then some (b.toNat % 64) else none

/-- The character of a two-byte sequence. -/
def pair? (a b : UInt8) : Option Char := do
  let low ← continuation? b
  if 0xC2 ≤ a.toNat ∧ a.toNat ≤ 0xDF then
    some (Char.ofNat ((a.toNat - 0xC0) * 64 + low))
  else none

/-- The character of a three-byte sequence, which is no surrogate and needs three bytes. -/
def triple? (a b c : UInt8) : Option Char := do
  let middle ← continuation? b
  let low ← continuation? c
  let n := (a.toNat - 0xE0) * 4096 + middle * 64 + low
  if 0xE0 ≤ a.toNat ∧ a.toNat ≤ 0xEF ∧ 0x800 ≤ n ∧ ¬(0xD800 ≤ n ∧ n ≤ 0xDFFF) then
    some (Char.ofNat n)
  else none

/-- The character of a four-byte sequence, which is in the range of Unicode and needs four bytes. -/
def quadruple? (a b c d : UInt8) : Option Char := do
  let high ← continuation? b
  let middle ← continuation? c
  let low ← continuation? d
  let n := (a.toNat - 0xF0) * 262144 + high * 4096 + middle * 64 + low
  if 0xF0 ≤ a.toNat ∧ a.toNat ≤ 0xF4 ∧ 0x10000 ≤ n ∧ n ≤ 0x10FFFF then
    some (Char.ofNat n)
  else none

/-- The longest well-formed sequence at the front of the bytes `a :: rest`, by its length after
`a`, and its character. -/
def front? (a : UInt8) : List UInt8 → Option (Nat × Char)
  | b :: c :: d :: _ =>
    (pair? a b).map ((1, ·)) <|> (triple? a b c).map ((2, ·)) <|>
      (quadruple? a b c d).map ((3, ·))
  | [b, c] => (pair? a b).map ((1, ·)) <|> (triple? a b c).map ((2, ·))
  | [b] => (pair? a b).map ((1, ·))
  | [] => none

/-- The symbols of a byte sequence; the first argument is the number of bytes to pass over because
the symbol before them is made of them too. -/
def decodeFrom : Nat → List UInt8 → List Symbol
  | _, [] => []
  | skip + 1, _ :: rest => decodeFrom skip rest
  | 0, a :: rest =>
    if a.toNat < 0x80 then .char (Char.ofNat a.toNat) :: decodeFrom 0 rest
    else
      match front? a rest with
      | some (n, c) => .char c :: decodeFrom n rest
      | none => .stray a :: decodeFrom 0 rest

/-- The symbols of a byte sequence. -/
def decode (bytes : List UInt8) : List Symbol := decodeFrom 0 bytes

/-- The characters of the symbols, if none is stray. -/
def chars? : List Symbol → Option (List Char)
  | [] => some []
  | .char c :: rest => (chars? rest).map (c :: ·)
  | .stray _ :: _ => none

/-- The characters of symbols of which none is stray. -/
theorem chars?_map_char (cs : List Char) : chars? (cs.map .char) = some cs := by
  induction cs with
  | nil => rfl
  | cons c cs ih => simp [chars?, ih]

/-- The text of a byte sequence, if it is one. -/
def text? (bytes : List UInt8) : Option String := (chars? (decode bytes)).map String.ofList

/-- One, two, three and four bytes; then an overlong sequence, a surrogate and a truncated one. -/
example : decode [0x61, 0xC3, 0xA9, 0xE2, 0x82, 0xAC, 0xF0, 0x9F, 0x98, 0x80] =
      ofString "aé€😀" ∧
    decode [0xC1, 0x81, 0xED, 0xA0, 0x80, 0xE2, 0x82] =
      [.stray 0xC1, .stray 0x81, .stray 0xED, .stray 0xA0, .stray 0x80, .stray 0xE2,
        .stray 0x82] := by decide +kernel

end Symbol

end FieldShader
