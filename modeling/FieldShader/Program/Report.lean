import FieldShader.Program.Run
import FieldShader.Text.Control

/-!
# What is shown on standard error

The records of the log come first, then the messages of the run. A record is shown without control
sequences, and the lines of its message after the first are indented; a message is shown as it is.
What is written is cut into lines without the carriage returns before their line feeds
(`Outcome.errorLines`).
-/

namespace FieldShader

/-- A line on standard error. -/
structure ErrorLine where
  /-- The level of the log record that starts in the line, if one does. -/
  level : Option LogLevel
  /-- The line, without the level. -/
  text : List Char
deriving DecidableEq

/-- A text without one carriage return at its end. -/
def dropReturn (line : List Char) : List Char :=
  if line.getLast? = some '\r' then line.dropLast else line

/-- The text of the record as it is shown. -/
def LogRecord.shown (r : LogRecord) : List Char :=
  withoutControls (r.message.toList.flatMap fun c =>
    if c = '\n' then '\n' :: List.replicate 4 ' ' else [c])

namespace ErrorLine

/-- The lines of a text that starts with a log record of the given level, if it has one. -/
def ofText (level : Option LogLevel) (s : List Char) : List ErrorLine :=
  match splitLines s with
  | [] => []
  | first :: rest => ⟨level, dropReturn first⟩ :: rest.map fun line => ⟨none, dropReturn line⟩

end ErrorLine

/-- The lines of a run on standard error. -/
def Outcome.errorLines (o : Outcome) : List ErrorLine :=
  o.log.flatMap (fun r => ErrorLine.ofText (some r.level) r.shown) ++
    o.stderr.flatMap fun message => ErrorLine.ofText none message.toList

/-- A name of two lines, the second in bold: the record goes on in a line of its own. -/
example :
    (ErrorLine.ofText (some .info)
      (LogRecord.built (some "a\r\n\x1b[1mb") 3).shown).map (fun line => (line.level, line.text)) =
      [(some .info, "scene 'a".toList), (none, "    b': 3 nodes".toList)] := by decide +kernel

end FieldShader
