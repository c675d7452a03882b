import DocAnnotations.Text.Affix

/-!
# Command-line arguments

There are two commands.  `compile` resolves the occurrences of an input against a schema and writes
their attributes; `decode` reads one attribute.  An option has two hyphens before its name; its
value is the next argument or stands behind an equals sign.  No option may be given twice, and
`--quiet` may also stand before the command.  Arguments are read in order, so a request for help or
for the version counts if nothing before it is wrong.
-/

namespace DocAnnotations

open Text

/-! ## Commands -/

/-- What to compile and where to write the results. -/
structure CompileOptions where
  schema : String
  input : String
  /-- The path of the attributes; standard output without it. -/
  output : Option String
  /-- The path of the report on diagnostics, which is not written without it. -/
  report : Option String
  /-- Whether to tell how long the work took. -/
  timing : Bool
deriving DecidableEq, Inhabited

/-- Which attribute to decode. -/
structure DecodeOptions where
  schema : String
  /-- The bytes of the attribute in hexadecimal. -/
  hex : String
deriving DecidableEq, Inhabited

/-- A command with its options. -/
inductive Command where
  | compile (options : CompileOptions)
  | decode (options : DecodeOptions)
deriving DecidableEq, Inhabited

/-- A command, and whether to keep quiet about the course of the work. -/
structure Arguments where
  command : Command
  quiet : Bool
deriving DecidableEq, Inhabited

/-- What arguments ask for. -/
inductive Invocation where
  | run (arguments : Arguments)
  | help
  | version
deriving DecidableEq, Inhabited

/-- How the program is to be called. -/
def usage : String :=
  "usage: backport175 [--quiet] compile --schema PATH --input PATH [--output PATH] [--report PATH] "
    ++ "[--timing]\n       backport175 [--quiet] decode --schema PATH --hex HEX\n"

/-! ## Options -/

/-- An option as it is given: its name and its value. -/
abbrev GivenOption := String × Option String

/-- The name of an option, and its value where one is attached. -/
def splitOption? (argument : String) : Option GivenOption :=
  match dropFront? ['-', '-'] argument.toList with
  | none => none
  | some cs =>
    let name := String.ofList (cs.takeWhile (· != '='))
    match cs.dropWhile (· != '=') with
    | [] => some (name, none)
    | _ :: value => some (name, some (String.ofList value))

/-- Whether an argument could be an option and so is no value; a lone hyphen is a value. -/
def looksLikeOption (argument : String) : Bool :=
  argument.startsWith "-" && argument != "-"

/-- The options that a command knows, by the kind of their values. -/
structure OptionNames where
  /-- Options whose value is a path, which is not empty. -/
  paths : List String
  /-- Options whose value is any text. -/
  texts : List String
  /-- Options without a value. -/
  flags : List String

/-- Whether an option of a command may have a value. -/
def OptionNames.accepts (names : OptionNames) (name value : String) : Bool :=
  names.texts.contains name || (names.paths.contains name && !value.isEmpty)

/-- What the arguments of a command are. -/
inductive CommandOptions where
  | help
  | given (options : List GivenOption)

/-- Whether an argument asks for help; what stands behind the letter makes no difference. -/
def asksForHelp (argument : String) : Bool := argument == "--help" || argument.startsWith "-h"

/-- Whether an option is given. -/
def isGiven (name : String) (given : List GivenOption) : Bool := given.any fun o => o.1 == name

/-- The value of an option. -/
def valueOf? (name : String) (given : List GivenOption) : Option String :=
  (given.lookup name).join

/-- The options among arguments, behind those already read.  Two hyphens alone say that there are no
more options. -/
def readOptions? (names : OptionNames) : List GivenOption → List String → Option CommandOptions
  | given, [] => some (.given given)
  | given, argument :: rest =>
    if argument = "--" then if rest.isEmpty then some (.given given) else none
    else if asksForHelp argument then some .help
    else match splitOption? argument with
      | none => none
      | some (name, attached) =>
        if isGiven name given then none
        else match attached with
          | some value =>
            if names.accepts name value then readOptions? names ((name, some value) :: given) rest
            else none
          | none =>
            if names.flags.contains name then readOptions? names ((name, none) :: given) rest
            else match rest with
              | [] => none
              | value :: rest =>
                if names.accepts name value && !looksLikeOption value then
                  readOptions? names ((name, some value) :: given) rest
                else none

/-! ## Invocations -/

/-- The options of `compile`. -/
def compileOptionNames : OptionNames :=
  ⟨["schema", "input", "output", "report"], [], ["timing", "quiet"]⟩

/-- The options of `decode`. -/
def decodeOptionNames : OptionNames := ⟨["schema"], ["hex"], ["quiet"]⟩

/-- The command `compile` with the given options. -/
def compileCommand? (given : List GivenOption) : Option Command := do
  let schema ← valueOf? "schema" given
  let input ← valueOf? "input" given
  return .compile
    { schema, input
      output := valueOf? "output" given
      report := valueOf? "report" given
      timing := isGiven "timing" given }

/-- The command `decode` with the given options. -/
def decodeCommand? (given : List GivenOption) : Option Command := do
  let schema ← valueOf? "schema" given
  let hex ← valueOf? "hex" given
  return .decode ⟨schema, hex⟩

/-- What the arguments of a command ask for. -/
def Invocation.ofCommand? (names : OptionNames) (command? : List GivenOption → Option Command)
    (quiet : Bool) (arguments : List String) : Option Invocation :=
  match readOptions? names [] arguments with
  | none => none
  | some .help => some .help
  | some (.given given) =>
    (command? given).map fun command => .run ⟨command, quiet || isGiven "quiet" given⟩

/-- What `help` with further arguments asks for. -/
def Invocation.ofHelp? : List String → Option Invocation
  | [] => some .help
  | [topic] => if ["compile", "decode", "help"].contains topic then some .help else none
  | _ => none

/-- What arguments ask for, where `--quiet` may have been met. -/
def Invocation.ofArguments? (quiet : Bool) : List String → Option Invocation
  | [] => none
  | argument :: rest =>
    if argument = "--quiet" then if quiet then none else Invocation.ofArguments? true rest
    else if asksForHelp argument then some .help
    else if argument = "--version" || argument.startsWith "-V" then some .version
    else match argument with
      | "compile" => Invocation.ofCommand? compileOptionNames compileCommand? quiet rest
      | "decode" => Invocation.ofCommand? decodeOptionNames decodeCommand? quiet rest
      | "help" => Invocation.ofHelp? rest
      | _ => none

/-- What arguments ask for, if they are right. -/
def Invocation.ofList? : List String → Option Invocation := Invocation.ofArguments? false

end DocAnnotations
