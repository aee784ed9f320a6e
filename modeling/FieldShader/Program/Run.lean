import FieldShader.Program.Arguments
import FieldShader.Program.Demo
import FieldShader.Program.Raymarch
import FieldShader.Program.World
import FieldShader.Template.Splice

/-!
# The program

What the program does is a function of its arguments and of the files it sees: an `Outcome` has the
texts it prints, its log, the one file it writes, and its exit code. Nothing is delivered when the
template or the scene cannot be had; once both are there, the shader is delivered whatever its
directives made of it, and only the exit code tells a strict run that some of them failed.
-/

namespace FieldShader

/-- The effects of a run. -/
structure Outcome where
  /-- The exit code. -/
  exit : Nat
  /-- The text on standard output. -/
  stdout : String := ""
  /-- The messages on standard error, without the log. -/
  stderr : List String := []
  /-- The log that is shown. -/
  log : List LogRecord := []
  /-- The path and the text of the file that is written. -/
  written : Option (String × String) := none

namespace Outcome

/-- A run that ends with an error and delivers nothing. -/
def failure (message : String) : Outcome := { exit := 1, stderr := ["Error: " ++ message] }

/-- Delivers a text to a file or, without one, to standard output; a file that cannot be written
fails the run. -/
def deliver (o : Outcome) (w : World) (target : Option String) (text : String) : Outcome :=
  match target with
  | none => { o with stdout := text }
  | some path =>
    match w.refuses path with
    | none => { o with written := some (path, text) }
    | some f =>
      { o with
        exit := 1
        stderr := o.stderr ++ ["Error: Write error (" ++ path ++ "): " ++ f.message] }

end Outcome

namespace Program

/-- The template of a run, the built-in one when none is named. -/
def template (w : World) (o : Options) : Except String String :=
  match o.template with
  | none => .ok raymarchTemplate
  | some path =>
    match w.readText path with
    | .ok text => .ok text
    | .error f => .error ("Template read error (" ++ path ++ "): " ++ f.message)

/-- The scene of a run, the demonstration when none is named. -/
def scene (w : World) (o : Options) : Except String SceneFile :=
  match o.scene with
  | none => .ok demoFile
  | some path =>
    match SceneFile.load w path with
    | .ok file => .ok file
    | .error e => .error ("Load error (" ++ path ++ "): " ++ e.message)

/-- The node of a scene file. -/
def root (file : SceneFile) : Except String Node :=
  match file.build .fresh with
  | (.ok n, _) => .ok n
  | (.error e, _) => .error ("Scene error: " ++ e.message)

/-- The records of a log that are shown: all of them, or the warnings only. -/
def shown (verbose : Bool) (log : List LogRecord) : List LogRecord :=
  log.filter fun r => verbose || r.level = .warn

/-- What a run of `compile` splices: the template, the scene file and its node, or the first reason
why they cannot be had. -/
def sources (w : World) (o : Options) : Except String (String × SceneFile × Node) := do
  let text ← template w o
  let file ← scene w o
  return (text, file, ← root file)

/-- Splices a scene into a template and delivers the shader. -/
def compile (w : World) (o : Options) : Outcome :=
  match sources w o with
  | .error message => .failure message
  | .ok (text, file, n) =>
    let compiled := (Splicer.mk n true).compile text
    let outcome : Outcome :=
      { exit := if o.strict && !compiled.isClean then 2 else 0
        stderr := compiled.failures.map DirectiveFailure.message
        log := shown o.verbose (.built file.name n.count :: compiled.log) }
    outcome.deliver w o.output compiled.source

/-- Writes the demonstration scene to a file. -/
def demo (w : World) (o : Options) : Outcome :=
  let path := o.output.getD "demo.json"
  match SceneFile.save w demoFile path with
  | .ok text =>
    { exit := 0, stdout := "Saved demo scene to " ++ path ++ "\n", written := some (path, text) }
  | .error e => .failure ("Save error: " ++ e.message)

/-- Carries out a command. -/
def run (w : World) (command : Command) (o : Options) : Outcome :=
  match command with
  | .compile => compile w o
  | .demo => demo w o
  | .template => ({ exit := 0 } : Outcome).deliver w o.output raymarchTemplate

/-- The name and the version of the program. -/
def versionText : String := "sdf-glsl " ++ version ++ "\n"

end Program

end FieldShader
