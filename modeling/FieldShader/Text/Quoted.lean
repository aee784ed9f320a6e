import FieldShader.Text.Printable

/-!
# Quoted texts in messages

A text that is shown inside a message stands between double quotes. Quotes and backslashes are
escaped, line ends, tabs and the null character have short escapes, and any other character that is
not printable is shown by its code point.
-/

namespace FieldShader

/-- The characters that are shown by an escape of one letter, and the letter of each. -/
def quotedLetters : List (Char × Char) :=
  [('\x00', '0'), ('\t', 't'), ('\n', 'n'), ('\r', 'r'), ('"', '"'), ('\\', '\\')]

/-- A character as it is shown between quotes. -/
def quotedChar (c : Char) : List Char :=
  match quotedLetters.lookup c with
  | some letter => ['\\', letter]
  | none =>
    if isPrintable c then [c]
    else '\\' :: 'u' :: '\x7b' :: (Nat.toDigits 16 c.toNat ++ ['\x7d'])

/-- A text as it is shown in a message. -/
def quoted (s : String) : String :=
  String.ofList ('"' :: (s.toList.flatMap quotedChar ++ ['"']))

/-- Accented letters are printable, a joiner and a combining mark on its own are not. -/
example : quoted "é'\"\n\u200d" = "\"é'\\\"\\n\\u\x7b200d\x7d\"" := by decide +kernel

end FieldShader
