import FieldShader.Scene.Emission
import FieldShader.Glsl.Listing
import FieldShader.Template.Directive
import FieldShader.Text.Lines

/-!
# Splicing a scene into a template

A template is the text of a shader in which every directive is replaced by the declarations of its
property, followed by the public alias unless aliases are switched off. Every other line is copied
as it is. A directive that fails keeps the declarations that were emitted before the failure and
ends in a comment that says what went wrong; the lines after it are spliced as if nothing had
happened. Lines are separated by line feeds; where a directive ends with a carriage return, so do
the lines that replace it.

Each line is spliced on its own (`spliceLine`). Only the log looks at the lines before it: blending
refers to distances, so a normal or a color that is evaluated before any distance is worth a
warning.
-/

namespace FieldShader

/-- A directive that was replaced by a comment. -/
structure DirectiveFailure where
  /-- The number of its line, counted from one. -/
  line : Nat
  /-- The word of the directive. -/
  tag : String
  /-- What went wrong. -/
  error : CompileError
deriving DecidableEq

namespace DirectiveFailure

/-- The failure as one line of a message. -/
def message (f : DirectiveFailure) : String :=
  "line " ++ toString f.line ++ ": #evaluate " ++ f.tag ++ ": " ++ f.error.message

end DirectiveFailure

/-- What a log record is about. -/
inductive LogRecord where
  /-- A scene was built; its name, if it has one, and its number of nodes. -/
  | built (name : Option String) (nodes : Nat)
  /-- A normal or a color is evaluated before any distance. -/
  | unprimed (line : Nat) (property : Property)
  /-- A directive failed. -/
  | failed (failure : DirectiveFailure)
  /-- A directive was replaced by a number of lines, for a node and the variable of its result. -/
  | substituted (property : Property) (lines : Nat) (node : String) (result : Variable)
deriving DecidableEq

/-- How urgent a log record is. -/
inductive LogLevel where
  | warn
  | info
  | debug
deriving DecidableEq

namespace LogRecord

/-- The level of the record. -/
def level : LogRecord → LogLevel
  | .built .. => .info
  | .unprimed .. | .failed _ => .warn
  | .substituted .. => .debug

/-- The text of the record. -/
def message : LogRecord → String
  | .built name nodes =>
    "scene '" ++ name.getD "unnamed" ++ "': " ++ toString nodes ++ " nodes"
  | .unprimed line p =>
    "line " ++ toString line ++ ": '" ++ p.tag ++
      "' evaluated before any 'sdf' directive; blend weights reference sdf variables"
  | .failed f => f.message
  | .substituted p lines node result =>
    "#evaluate " ++ p.tag ++ ": " ++ toString lines ++ " line(s) for " ++ node ++
      " rooted at " ++ result.name

end LogRecord

/-- A scene to splice into templates. -/
structure Splicer where
  /-- The scene. -/
  root : Node
  /-- Whether the public alias follows the declarations of a property. -/
  aliases : Bool

/-- What became of one line of a template. -/
inductive Spliced where
  /-- No directive. -/
  | copied (line : List Char)
  /-- A directive that succeeded, with the declarations that replace it. -/
  | substituted (directive : Directive) (property : Property) (declarations : List Declaration)
    (ending : List Char)
  /-- A directive that failed, with the declarations before the failure. -/
  | failed (directive : Directive) (declarations : List Declaration) (error : CompileError)
    (ending : List Char)

namespace Spliced

/-- A generated line: indented, and ended like the directive it belongs to. -/
def generate (d : Directive) (ending : List Char) (line : String) : List Char :=
  (indent d.depth line).toList ++ ending

/-- The comment of a failed directive. -/
def comment (d : Directive) (e : CompileError) : String :=
  "// #evaluate " ++ String.ofList d.tag ++ ": " ++ e.message

/-- The lines in place of the line. -/
def lines : Spliced → List (List Char)
  | .copied line => [line]
  | .substituted d _ declarations ending =>
    declarations.map fun x => generate d ending x.render
  | .failed d declarations e ending =>
    declarations.map (fun x => generate d ending x.render) ++ [generate d ending (comment d e)]

/-- Whether the line was a directive. -/
def isDirective : Spliced → Bool
  | .copied _ => false
  | .substituted .. | .failed .. => true

/-- The property that a directive names, whether or not it succeeded. -/
def property? : Spliced → Option Property
  | .copied _ => none
  | .substituted _ p _ _ => some p
  | .failed d _ _ _ => Property.ofTag? (String.ofList d.tag)

/-- The failure of a directive in the line of the given number. -/
def failure? (line : Nat) : Spliced → Option DirectiveFailure
  | .failed d _ e _ => some ⟨line, String.ofList d.tag, e⟩
  | _ => none

end Spliced

namespace Splicer

/-- The declarations of a property, with the public alias if it is wanted. -/
def emit (s : Splicer) (p : Property) : Emission :=
  (s.root.emit .world p).andThen (.ok (if s.aliases then [.publish p s.root.id] else []))

/-- Replaces a directive. -/
def substitute (s : Splicer) (d : Directive) (ending : List Char) : Spliced :=
  match Property.ofTag? (String.ofList d.tag) with
  | none => .failed d [] (.unknownProperty (String.ofList d.tag)) ending
  | some p =>
    match s.emit p with
    | ⟨declarations, none⟩ => .substituted d p declarations ending
    | ⟨declarations, some e⟩ => .failed d declarations e ending

/-- A line without the carriage return at its end, and the carriage return. -/
def cutReturn (line : List Char) : List Char × List Char :=
  if line.getLast? = some '\r' then (line.dropLast, ['\r']) else (line, [])

/-- Splices one line. -/
def spliceLine (s : Splicer) (line : List Char) : Spliced :=
  let (body, ending) := cutReturn line
  match Directive.ofLine? body with
  | none => .copied line
  | some d => s.substitute d ending

/-- Splices all lines of a template. -/
def splice (s : Splicer) (template : List Char) : List Spliced :=
  (splitLines template).map s.spliceLine

/-- The log of one line of the given number; `primed` says whether a distance was evaluated
before it. -/
def logLine (s : Splicer) (primed : Bool) (line : Nat) (x : Spliced) : List LogRecord :=
  let warning :=
    match x.property? with
    | some p => if p ≠ .sdf ∧ !primed then [LogRecord.unprimed line p] else []
    | none => []
  warning ++
    match x with
    | .copied _ => []
    | .substituted _ p declarations _ =>
      [.substituted p declarations.length s.root.name (s.root.result p)]
    | .failed d _ e _ => [.failed ⟨line, String.ofList d.tag, e⟩]

/-- The log of lines from the given number on. -/
def logFrom (s : Splicer) (primed : Bool) (line : Nat) : List Spliced → List LogRecord
  | [] => []
  | x :: xs =>
    s.logLine primed line x ++ s.logFrom (primed || x.property? = some .sdf) (line + 1) xs

/-- The failures of lines from the given number on. -/
def failuresFrom (line : Nat) : List Spliced → List DirectiveFailure
  | [] => []
  | x :: xs => (x.failure? line).toList ++ failuresFrom (line + 1) xs

end Splicer

/-- A template with a scene spliced in. -/
structure CompiledTemplate where
  /-- The shader. -/
  source : String
  /-- The number of directives in the template. -/
  directives : Nat
  /-- The directives that failed. -/
  failures : List DirectiveFailure
  /-- What happened, in order. -/
  log : List LogRecord

namespace CompiledTemplate

/-- Whether every directive succeeded. -/
def isClean (c : CompiledTemplate) : Bool := c.failures.isEmpty

end CompiledTemplate

/-- Splices a scene into a template. -/
def Splicer.compile (s : Splicer) (template : String) : CompiledTemplate :=
  let spliced := s.splice template.toList
  { source := String.ofList (joinLines (spliced.flatMap Spliced.lines))
    directives := spliced.countP Spliced.isDirective
    failures := Splicer.failuresFrom 1 spliced
    log := s.logFrom false 1 spliced }

end FieldShader
