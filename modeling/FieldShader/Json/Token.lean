import FieldShader.Json.Numeral
import FieldShader.Text.Utf8

/-!
# Tokens of a JSON text

`Token.ofSymbols` cuts a text into tokens, up to the first place where no token can be cut. What a
token means may depend on its use: a number out of range, or a string with a lone surrogate, is a
fault where the value is wanted and none where it is passed over. Such a token carries the value or
the fault. Where the text cannot be cut further, a broken token carries two faults, one for either
use, and ends the list. A broken token is only a fault where a value is read, so a reader that meets
it elsewhere still reports what it was looking for.
-/

namespace FieldShader

/-- A token of a JSON text. -/
inductive Token where
  | openList
  | closeList
  | openObject
  | closeObject
  | comma
  | colon
  | null
  | bool (b : Bool)
  | number (value : Except Fault JsonNumber)
  | text (content : Except Fault String)
  /-- A string that does not end; the faults of using it and of passing over it. -/
  | brokenText (used skipped : Fault)
  /-- Anything else that is no token; the faults of using it and of passing over it. -/
  | broken (used skipped : Fault)

namespace Token

/-! ## Strings -/

/-- The value of a hexadecimal digit. -/
def hexDigit? : Symbol → Option Nat
  | .stray _ => none
  | .char c =>
    if '0' ≤ c ∧ c ≤ '9' then some (c.toNat - '0'.toNat)
    else if 'a' ≤ c ∧ c ≤ 'f' then some (c.toNat - 'a'.toNat + 10)
    else if 'A' ≤ c ∧ c ≤ 'F' then some (c.toNat - 'A'.toNat + 10)
    else none

/-- The number that four hexadecimal digits write. -/
def hexUnit? (a b c d : Symbol) : Option Nat := do
  return (((← hexDigit? a) * 16 + (← hexDigit? b)) * 16 + (← hexDigit? c)) * 16 + (← hexDigit? d)

/-- The character of an escape other than the hexadecimal one. -/
def simpleEscape? : Symbol → Option Char
  | .stray _ => none
  | .char c =>
    if c = '"' ∨ c = '\\' ∨ c = '/' then some c
    else if c = 'b' then some '\x08'
    else if c = 'f' then some '\x0c'
    else if c = 'n' then some '\n'
    else if c = 'r' then some '\r'
    else if c = 't' then some '\t'
    else none

/-- The fault of a hexadecimal escape that is not followed by four digits: the text may end inside
the four bytes that are wanted. -/
def hexFault (rest : List Symbol) : Fault :=
  if (rest.take 4).foldl (fun size s => size + s.size) 0 < 4 then .endOfText else .invalidEscape

/-- Whether a number is a high surrogate, the first of a pair. -/
def isHighSurrogate (n : Nat) : Bool := 0xD800 ≤ n && n < 0xDC00

/-- Whether a number is a low surrogate, the second of a pair. -/
def isLowSurrogate (n : Nat) : Bool := 0xDC00 ≤ n && n < 0xE000

/-- The character of a pair of surrogates. -/
def joinSurrogates (high low : Nat) : Char :=
  Char.ofNat ((high - 0xD800) * 0x400 + (low - 0xDC00) + 0x10000)

/-- What follows a string that is passed over, given what follows its opening quote. -/
def skipText : List Symbol → Except Fault (List Symbol)
  | [] => .error .endOfText
  | .stray _ :: rest => skipText rest
  | .char c :: rest =>
    if c = '"' then .ok rest
    else if c = '\\' then
      match rest with
      | [] => .error .endOfText
      | e :: escaped =>
        if e = .char 'u' then
          match escaped with
          | h₁ :: h₂ :: h₃ :: h₄ :: rest' =>
            if (hexUnit? h₁ h₂ h₃ h₄).isSome then skipText rest' else .error .invalidEscape
          | short => .error (hexFault short)
        else if (simpleEscape? e).isSome then skipText escaped
        else .error .invalidEscape
    else if c < ' ' then .error .controlCharacter
    else skipText rest

/-- The symbols of a string, given what follows its opening quote and the high surrogate that was
just escaped, if there was one. -/
def readText (pending : Option Nat) : List Symbol → Except Fault (List Symbol)
  | [] => .error .endOfText
  | s :: rest =>
    match pending with
    | some high =>
      if s = .char '\\' then
        match rest with
        | [] => .error .endOfText
        | e :: escaped =>
          if e = .char 'u' then
            match escaped with
            | h₁ :: h₂ :: h₃ :: h₄ :: rest' =>
              match hexUnit? h₁ h₂ h₃ h₄ with
              | none => .error .invalidEscape
              | some low =>
                if isLowSurrogate low then
                  (readText none rest').map (.char (joinSurrogates high low) :: ·)
                else .error .loneSurrogate
            | short => .error (hexFault short)
          else .error .unfinishedSurrogate
      else .error .unfinishedSurrogate
    | none =>
      match s with
      | .stray b => (readText none rest).map (.stray b :: ·)
      | .char c =>
        if c = '"' then .ok []
        else if c = '\\' then
          match rest with
          | [] => .error .endOfText
          | e :: escaped =>
            if e = .char 'u' then
              match escaped with
              | h₁ :: h₂ :: h₃ :: h₄ :: rest' =>
                match hexUnit? h₁ h₂ h₃ h₄ with
                | none => .error .invalidEscape
                | some n =>
                  if isLowSurrogate n then .error .loneSurrogate
                  else if isHighSurrogate n then readText (some n) rest'
                  else (readText none rest').map (.char (Char.ofNat n) :: ·)
              | short => .error (hexFault short)
            else
              match simpleEscape? e with
              | some c' => (readText none escaped).map (.char c' :: ·)
              | none => .error .invalidEscape
        else if c < ' ' then .error .controlCharacter
        else (readText none rest).map (.char c :: ·)

/-- The value of a string, given what follows its opening quote. -/
def textValue (s : List Symbol) : Except Fault String := do
  match Symbol.chars? (← readText none s) with
  | some chars => return String.ofList chars
  | none => throw .invalidCodePoint

/-- The token of a string and what follows it. -/
def scanText (s : List Symbol) : Token × List Symbol :=
  match skipText s with
  | .ok rest => (.text (textValue s), rest)
  | .error skipped =>
    match textValue s with
    | .ok _ => (.brokenText skipped skipped, [])
    | .error used => (.brokenText used skipped, [])

/-! ## Numbers and literals -/

/-- The digits at the front and what follows them. -/
def takeDigits : List Symbol → List Nat × List Symbol
  | .char c :: rest =>
    if c.isDigit then
      let (digits, rest') := takeDigits rest
      ((c.toNat - '0'.toNat) :: digits, rest')
    else ([], .char c :: rest)
  | rest => ([], rest)

/-- The token of a numeral that lacks a digit before the given rest. -/
def missingDigit (rest : List Symbol) : Token :=
  .broken (if rest.isEmpty then .endOfValue else .invalidNumber) .invalidNumber

/-- The token of a numeral from its exponent on, and what follows it. -/
def scanExponent (negative : Bool) (whole fraction : List Nat) (s : List Symbol) :
    Token × List Symbol :=
  let finish (down : Bool) (rest : List Symbol) : Token × List Symbol :=
    match takeDigits rest with
    | ([], rest') => (missingDigit rest', [])
    | (digits, rest') =>
      (.number (Numeral.mk negative whole fraction (some (down, digits))).value, rest')
  match s with
  | .char c :: rest =>
    if c = 'e' ∨ c = 'E' then
      match rest with
      | .char '-' :: rest' => finish true rest'
      | .char '+' :: rest' => finish false rest'
      | rest' => finish false rest'
    else (.number (Numeral.mk negative whole fraction none).value, s)
  | _ => (.number (Numeral.mk negative whole fraction none).value, s)

/-- The token of a numeral after its sign, and what follows it. A zero is followed by no further
digit, and a point is. -/
def scanNumeral (negative : Bool) (s : List Symbol) : Token × List Symbol :=
  match takeDigits s with
  | ([], rest) => (missingDigit rest, [])
  | (0 :: _ :: _, _) => (.broken .invalidNumber .invalidNumber, [])
  | (whole, rest) =>
    match rest with
    | .char '.' :: rest' =>
      match takeDigits rest' with
      | ([], rest'') => (missingDigit rest'', [])
      | (fraction, rest'') => scanExponent negative whole fraction rest''
    | _ => scanExponent negative whole [] rest

/-- What follows a literal whose first letter is passed. -/
def literalRest : List Char → List Symbol → Except Fault (List Symbol)
  | [], rest => .ok rest
  | _ :: _, [] => .error .endOfValue
  | c :: cs, s :: rest => if s = .char c then literalRest cs rest else .error .expectedLiteral

/-- The token of a literal whose first letter is passed, and what follows it. -/
def scanLiteral (token : Token) (letters : String) (s : List Symbol) : Token × List Symbol :=
  match literalRest letters.toList s with
  | .ok rest => (token, rest)
  | .error e => (.broken e e, [])

/-! ## Texts -/

/-- The token that starts with the character `c`, given what follows it, and what follows the
token. -/
def scan (c : Char) (rest : List Symbol) : Token × List Symbol :=
  if c = '[' then (.openList, rest)
  else if c = ']' then (.closeList, rest)
  else if c = '\x7b' then (.openObject, rest)
  else if c = '\x7d' then (.closeObject, rest)
  else if c = ',' then (.comma, rest)
  else if c = ':' then (.colon, rest)
  else if c = '"' then scanText rest
  else if c = '-' then scanNumeral true rest
  else if c.isDigit then scanNumeral false (.char c :: rest)
  else if c = 'n' then scanLiteral .null "ull" rest
  else if c = 't' then scanLiteral (.bool true) "rue" rest
  else if c = 'f' then scanLiteral (.bool false) "alse" rest
  else (.broken .expectedValue .expectedValue, [])

/-- Whether a character separates tokens. -/
def isSpace (c : Char) : Bool := c = ' ' || c = '\n' || c = '\t' || c = '\r'

/-- At most the given number of tokens of the symbols, blanks counted. -/
def ofSymbolsFrom : Nat → List Symbol → List Token
  | 0, _ => []
  | _ + 1, [] => []
  | _ + 1, .stray _ :: _ => [.broken .expectedValue .expectedValue]
  | fuel + 1, .char c :: rest =>
    if isSpace c then ofSymbolsFrom fuel rest
    else
      let (token, rest') := scan c rest
      token :: ofSymbolsFrom fuel rest'

/-- The tokens of a text. Each is made of at least one symbol, so there are at most as many tokens
as symbols. -/
def ofSymbols (s : List Symbol) : List Token := ofSymbolsFrom s.length s

end Token

end FieldShader
