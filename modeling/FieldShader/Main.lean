import FieldShader.Program.Report

/-!
# The command line

Reads the files that the arguments name, lets `Program.run` decide, and carries out its effects. A
file that turns out not to be writable is reported by a second decision in a world that says so.
-/

namespace FieldShader

namespace CommandLine

/-- A system error in the words of the program. -/
def fileFault : IO.Error → FileFault
  | .noFileOrDirectory .. => .notFound
  | .inappropriateType _ code _ => if code = 20 then .notDirectory else .isDirectory
  | .resourceExhausted _ code text => if code = 28 then .noSpace else .other text
  | .invalidArgument _ code text => if code = 36 then .nameTooLong else .other text
  | e => .other (toString e)

/-- The contents of a file. -/
def readFile (path : String) : IO (Except FileFault (List UInt8)) := do
  try
    return .ok (← IO.FS.readBinFile path).toList
  catch e => return .error (fileFault e)

/-- The world of the named files, in which everything can be written. -/
def observe (paths : List String) : IO World := do
  let files ← paths.mapM fun path => return (path, ← readFile path)
  return ⟨fun path => (files.lookup path).getD (.error .notFound), fun _ => none⟩

/-- A line on standard error with the level of its log record. -/
def errorLine (line : ErrorLine) : String :=
  let level := match line.level with
    | none => ""
    | some .warn => "[WARN] "
    | some .info => "[INFO] "
    | some .debug => "[DEBUG] "
  level ++ String.ofList line.text

/-- Prints what a run has to say. -/
def report (o : Outcome) : IO Unit := do
  for line in o.errorLines do IO.eprintln (errorLine line)
  IO.print o.stdout

/-- Carries out a command. -/
def perform (command : Command) (options : Options) : IO UInt32 := do
  let w ← observe (options.template.toList ++ options.scene.toList)
  let planned := Program.run w command options
  let outcome ←
    match planned.written with
    | none => pure planned
    | some (path, text) =>
      try
        IO.FS.writeFile path text
        pure planned
      catch e =>
        pure (Program.run { w with refuses := fun _ => some (fileFault e) } command options)
  report outcome
  return outcome.exit.toUInt32

/-- The summary of the commands. -/
def helpText : String :=
  String.join (["Compile scenes of distance fields into shader templates", "",
    "Usage: sdf-glsl [-v] compile [-t TEMPLATE] [-s SCENE] [-o OUTPUT] [--strict]",
    "       sdf-glsl [-v] demo [-o OUTPUT]",
    "       sdf-glsl [-v] template [-o OUTPUT]"].map (· ++ "\n"))

end CommandLine

end FieldShader

open FieldShader in
/-- Runs the program. -/
def main (arguments : List String) : IO UInt32 := do
  match Arguments.parse arguments with
  | .ok .help => IO.print CommandLine.helpText; return 0
  | .ok .version => IO.print Program.versionText; return 0
  | .ok (.run command options) => CommandLine.perform command options
  | .error e => IO.eprintln ("error: " ++ e.message); return 2
