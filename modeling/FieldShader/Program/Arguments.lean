/-!
# Arguments of the program

The program has three commands with options of their own. An option with a value takes it from the
rest of its argument, after an equals sign or at once if its name is short, or from the next
argument, unless that looks like an option. Short options can share an argument. No option may be
given twice to the same command; the switch for the log may be given before the command as well as
after it. Asking for help or for the version ends the arguments there.
-/

namespace FieldShader

/-- The commands of the program. -/
inductive Command where
  /-- Splices a scene into a template. -/
  | compile
  /-- Writes the demonstration scene. -/
  | demo
  /-- Writes the built-in template. -/
  | template
deriving DecidableEq

/-- The options with a value. -/
inductive Setting where
  | template
  | scene
  | output
deriving DecidableEq

/-- The options without one. -/
inductive Switch where
  /-- Fail if a directive failed. -/
  | strict
  /-- Show the whole log. -/
  | verbose
deriving DecidableEq

namespace Setting

/-- The long name of the option. -/
def name : Setting → String
  | .template => "template"
  | .scene => "scene"
  | .output => "output"

/-- The short name of the option. -/
def letter : Setting → Char
  | .template => 't'
  | .scene => 's'
  | .output => 'o'

end Setting

namespace Switch

/-- The long name of the option. -/
def name : Switch → String
  | .strict => "strict"
  | .verbose => "verbose"

/-- The short name of the option, if it has one. -/
def letter? : Switch → Option Char
  | .strict => none
  | .verbose => some 'v'

end Switch

namespace Command

/-- All commands. -/
def all : List Command := [.compile, .demo, .template]

/-- The word for the command. -/
def name : Command → String
  | .compile => "compile"
  | .demo => "demo"
  | .template => "template"

/-- The command of the given name. -/
def ofName? (word : String) : Option Command := all.find? (·.name = word)

/-- The options with a value that a command takes; before the command there are none. -/
def settings : Option Command → List Setting
  | none => []
  | some .compile => [.template, .scene, .output]
  | some .demo | some .template => [.output]

/-- The options without a value that a command takes, or that come before the command. -/
def switches : Option Command → List Switch
  | some .compile => [.strict, .verbose]
  | _ => [.verbose]

end Command

/-- The options that were given. -/
structure Options where
  template : Option String := none
  scene : Option String := none
  output : Option String := none
  strict : Bool := false
  verbose : Bool := false
deriving DecidableEq

/-- Why arguments are refused. -/
inductive UsageError where
  | unknown (argument : String)
  | missingValue (option : String)
  | emptyValue (option : String)
  | unexpectedValue (option : String)
  | repeated (option : String)
  | missingCommand
deriving DecidableEq

namespace UsageError

/-- The error as a message. -/
def message : UsageError → String
  | .unknown argument => "unexpected argument '" ++ argument ++ "'"
  | .missingValue option => "option '" ++ option ++ "' needs a value"
  | .emptyValue option => "the value of option '" ++ option ++ "' is empty"
  | .unexpectedValue option => "option '" ++ option ++ "' takes no value"
  | .repeated option => "option '" ++ option ++ "' is given more than once"
  | .missingCommand => "a command is needed"

end UsageError

namespace Options

/-- The value of an option. -/
def get (o : Options) : Setting → Option String
  | .template => o.template
  | .scene => o.scene
  | .output => o.output

/-- Gives an option its value, which is not empty and the only one. -/
def set (o : Options) (s : Setting) (value : String) : Except UsageError Options :=
  if value = "" then .error (.emptyValue s.name)
  else if (o.get s).isSome then .error (.repeated s.name)
  else
    match s with
    | .template => .ok { o with template := some value }
    | .scene => .ok { o with scene := some value }
    | .output => .ok { o with output := some value }

/-- Sets a switch, which is not set yet. -/
def turnOn (o : Options) : Switch → Except UsageError Options
  | .strict => if o.strict then .error (.repeated "strict") else .ok { o with strict := true }
  | .verbose => if o.verbose then .error (.repeated "verbose") else .ok { o with verbose := true }

end Options

/-- What the arguments ask for. -/
inductive Request where
  | help
  | version
  | run (command : Command) (options : Options)
deriving DecidableEq

namespace Arguments

/-- What one argument that is an option amounts to. -/
inductive Effect where
  /-- Its options are taken in. -/
  | done (options : Options)
  /-- It ends in an option whose value is still to come. -/
  | pending (setting : Setting) (options : Options)
  /-- It ends the arguments. -/
  | stop (request : Request)

/-- Whether an argument can be the value of an option before it. -/
def isPlain (argument : String) : Bool := !argument.startsWith "-" || argument = "-"

/-- Takes in a long option, given its name and, after an equals sign, its value. -/
def long (command : Option Command) (o : Options) (name : String) (value? : Option String) :
    Except UsageError Effect :=
  match (Command.settings command).find? (·.name = name) with
  | some s =>
    match value? with
    | some value => (o.set s value).map .done
    | none => .ok (.pending s o)
  | none =>
    let plain (e : Except UsageError Effect) : Except UsageError Effect :=
      if value?.isSome then .error (.unexpectedValue name) else e
    match (Command.switches command).find? (·.name = name) with
    | some s => plain ((o.turnOn s).map .done)
    | none =>
      if name = "help" then plain (.ok (.stop .help))
      else if name = "version" ∧ command = none then plain (.ok (.stop .version))
      else .error (.unknown name)

/-- Takes in the short options that share an argument. -/
def short (command : Option Command) (o : Options) : List Char → Except UsageError Effect
  | [] => .ok (.done o)
  | c :: rest =>
    match (Command.settings command).find? (·.letter = c) with
    | some s =>
      match rest with
      | [] => .ok (.pending s o)
      | '=' :: value => (o.set s (String.ofList value)).map .done
      | value => (o.set s (String.ofList value)).map .done
    | none =>
      match (Command.switches command).find? (·.letter? = some c) with
      | some s => do short command (← o.turnOn s) rest
      | none =>
        if c = 'h' then .ok (.stop .help)
        else if c = 'V' ∧ command = none then .ok (.stop .version)
        else .error (.unknown (String.singleton c))

/-- Takes in an argument that starts with a minus sign and is not that sign alone. -/
def option (command : Option Command) (o : Options) (argument : String) :
    Except UsageError Effect :=
  match argument.toList with
  | '-' :: '-' :: body =>
    match body.dropWhile (· ≠ '=') with
    | [] => long command o (String.ofList body) none
    | _ :: value =>
      long command o (String.ofList (body.takeWhile (· ≠ '='))) (some (String.ofList value))
  | _ :: letters => short command o letters
  | [] => .error (.unknown argument)

/-- Reads the arguments of a command. Two minus signs alone end the options, and no command takes
anything else. -/
def ofCommand (command : Command) (o : Options) : List String → Except UsageError Request
  | [] => .ok (.run command o)
  | argument :: rest =>
    if argument = "--" then
      match rest with
      | [] => .ok (.run command o)
      | extra :: _ => .error (.unknown extra)
    else if isPlain argument then .error (.unknown argument)
    else
      match option (some command) o argument with
      | .error e => .error e
      | .ok (.stop request) => .ok request
      | .ok (.done o) => ofCommand command o rest
      | .ok (.pending s o) =>
        match rest with
        | [] => .error (.missingValue s.name)
        | value :: rest =>
          if isPlain value then
            match o.set s value with
            | .error e => .error e
            | .ok o => ofCommand command o rest
          else .error (.missingValue s.name)

/-- Reads what follows the command `help`: nothing, or the name of one command. -/
def ofHelp : List String → Except UsageError Request
  | [] => .ok .help
  | [word] =>
    if (Command.ofName? word).isSome ∨ word = "help" then .ok .help else .error (.unknown word)
  | _ :: extra :: _ => .error (.unknown extra)

/-- Reads all arguments: options, the command, and its arguments. -/
def parseFrom (o : Options) : List String → Except UsageError Request
  | [] => .error .missingCommand
  | argument :: rest =>
    if argument = "--" then .error .missingCommand
    else if isPlain argument then
      match Command.ofName? argument with
      | some command =>
        match ofCommand command {} rest with
        | .ok (.run command given) =>
          .ok (.run command { given with verbose := o.verbose || given.verbose })
        | other => other
      | none => if argument = "help" then ofHelp rest else .error (.unknown argument)
    else
      match option none o argument with
      | .error e => .error e
      | .ok (.stop request) => .ok request
      | .ok (.done o) => parseFrom o rest
      | .ok (.pending s _) => .error (.missingValue s.name)

/-- Reads the arguments of the program. -/
def parse (arguments : List String) : Except UsageError Request := parseFrom {} arguments

/-- One value in each of its positions, and an option in the place of a value. -/
example : (parse ["-v", "compile", "-ta", "--scene=b", "-o", "c", "--strict"]).toOption =
      some (.run .compile ⟨some "a", some "b", some "c", true, true⟩) ∧
    (parse ["compile", "-t", "--strict"]).toOption = none ∧
    (parse ["-vV"]).toOption = some .version := by decide +kernel

end Arguments

end FieldShader
