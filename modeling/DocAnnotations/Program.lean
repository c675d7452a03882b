import DocAnnotations.CommandLine
import DocAnnotations.Scan
import DocAnnotations.Value.Document

/-!
# The program

The program is written against a `Host`, which gives it files, output and a clock.  It runs on the
files of a real system as well as on a `FileSystem`, which `memoryHost` makes a host of.
-/

namespace DocAnnotations

open Text

/-! ## Hosts -/

/-- What the program needs of its surroundings. -/
structure Host (m : Type → Type) where
  workingDirectory : m String
  /-- The tree at a path. -/
  look : String → m (Except SystemError FileTree)
  /-- Writes a text to the file at a path. -/
  create : String → String → m (Except SystemError Unit)
  /-- Writes to standard output. -/
  print : String → m Unit
  /-- Writes to the error output. -/
  warn : String → m Unit
  /-- The time in milliseconds. -/
  clock : m Nat

/-! ## Failures -/

/-- Why the program ends without success. -/
inductive Failure where
  | inputNotFound (path : String)
  | schemaNotFound (path : String)
  | input (cause : InputError)
  | unwritable (path : String) (cause : SystemError)
  | invalidHex (cause : HexError)
  | undecodable (cause : Attribute.ReadError)
  | occurrencesFailed (failed all : Nat)
  /-- A literal that has no tokens. -/
  | lexical (cause : LexError)
deriving DecidableEq

namespace Failure

/-- What failed, and behind it why. -/
def chain : Failure → List String
  | inputNotFound path => [s!"input not found: {path}"]
  | schemaNotFound path => [s!"schema not found: {path}"]
  | input cause => cause.chain
  | unwritable path cause => [s!"failed to open {path}", cause.message]
  | invalidHex cause => ["attribute is not valid hex", cause.message]
  | undecodable cause => ["failed to decode attribute", cause.message]
  | occurrencesFailed failed all =>
    [s!"{failed} of {all} annotation occurrences failed to compile"]
  | lexical cause => [(ParseError.lexical cause).message]

/-- The exit code. -/
def exitCode : Failure → UInt8
  | input (.invalidSchema _ cause) => if cause.lexError?.isSome then 101 else 1
  | lexical _ => 101
  | _ => 1

end Failure

/-- A text behind a mark, its further lines behind as many blanks. -/
def indented (mark text : String) : String :=
  let blanks := String.ofList (List.replicate mark.length ' ')
  mark ++ String.intercalate ("\n" ++ blanks) (text.splitOn "\n")

/-- The causes of a failure, each on a line of its own and numbered if there are several. -/
def causeLines : List String → List String
  | [] => []
  | [cause] => [indented "    " cause]
  | causes => causes.zipIdx.map fun (cause, n) =>
    let number := toString n
    let blanks := String.ofList (List.replicate (5 - number.length) ' ')
    indented (blanks ++ number ++ ": ") cause

/-- The report of a failure to the user. -/
def Failure.report (f : Failure) : String :=
  match f.chain with
  | [] => "Error: \n"
  | [message] => s!"Error: {message}\n"
  | message :: causes =>
    s!"Error: {message}\n\nCaused by:\n" ++ String.intercalate "\n" (causeLines causes) ++ "\n"

/-- Part of the program on a host. -/
abbrev Program (m : Type → Type) := ExceptT Failure m

/-! ## Commands -/

section

variable {m : Type → Type} [Monad m] (host : Host m)

/-- A result as part of the program; `failure` is what its errors mean there. -/
def orFail {ε α : Type} (failure : ε → Failure) : Except ε α → Program m α
  | .ok a => return a
  | .error e => throw (failure e)

/-- Whether a path means standard output. -/
def isStandardOutput (path : String) : Bool :=
  match pathNames path with
  | name :: names => name == "-" && names.all staysInPlace
  | [] => false

/-- Writes a document to the file at a path, or to standard output. -/
def writeDocument (path : Option String) (document : Json) : Program m Unit := do
  let text := document.pretty ++ "\n"
  match path with
  | none => host.print text
  | some path =>
    if isStandardOutput path then host.print text
    else orFail (.unwritable path) (← host.create path text)

/-- Compiles the occurrences of an input; `arguments` is the whole command line. -/
def runCompile (arguments : List String) (quiet : Bool) (o : CompileOptions) :
    Program m Unit := do
  let input ← host.look o.input
  if let .error _ := input then throw (.inputNotFound o.input)
  let schema ← host.look o.schema
  if let .error _ := schema then throw (.schemaNotFound o.schema)
  let started ← host.clock
  let index ← orFail .input (loadSchema o.schema schema)
  let directory ← host.workingDirectory
  let scanStarted ← host.clock
  let scan ← orFail .input (Scan.ofPath directory o.input input)
  let compileStarted ← host.clock
  let report ← match compileBatch (index.loader ⟨0⟩) scan.occurrences .empty with
    | .ok report _ => pure report
    | .error cause _ => throw (.lexical cause)
  let compileEnded ← host.clock
  writeDocument host o.output (.array (report.attributes.map MemberAttribute.toJson))
  let invocation : Sarif.Invocation :=
    { arguments := Sarif.toolName :: arguments
      scanMilliseconds := compileStarted - scanStarted
      compileMilliseconds := compileEnded - compileStarted
      artifactCount := scan.artifacts.length
      summary := report.summary }
  if let some path := o.report then
    writeDocument host (some path) (Sarif.report scan.artifacts invocation report.errors)
  if o.timing && !quiet then
    host.warn (s!"timing: total_ms={(← host.clock) - started} "
      ++ s!"scan_ms={invocation.scanMilliseconds} compile_ms={invocation.compileMilliseconds} "
      ++ s!"occurrences={report.summary.occurrences} artifacts={invocation.artifactCount}\n")
  if report.summary.hasFailures then
    throw (.occurrencesFailed report.summary.failed report.summary.occurrences)

/-- Decodes an attribute. -/
def runDecode (o : DecodeOptions) : Program m Unit := do
  let index ← orFail .input (loadSchema o.schema (← host.look o.schema))
  let hex := String.ofList (trimEnd (trimStart o.hex.toList))
  let bytes ← orFail .invalidHex (bytesOfHex hex)
  match (index.loader ⟨0⟩).decodeMember bytes .empty with
  | .ok annotations _ => writeDocument host none (.array (annotations.map Annotation.toJson))
  | .error cause _ => throw (.undecodable cause)

/-- The version of the program. -/
def toolVersion : String := "0.1.0"

/-- Runs the program with the given arguments and gives its exit code. -/
def runProgram (arguments : List String) : m UInt8 := do
  match Invocation.ofList? arguments with
  | none =>
    host.warn usage
    return 2
  | some .help =>
    host.print usage
    return 0
  | some .version =>
    host.print s!"{Sarif.toolName} {toolVersion}\n"
    return 0
  | some (.run ⟨command, quiet⟩) =>
    let result ← (match command with
      | .compile options => runCompile host arguments quiet options
      | .decode options => runDecode host options).run
    match result with
    | .ok _ => return 0
    | .error failure =>
      host.warn failure.report
      return failure.exitCode

end

/-! ## The host in memory -/

/-- Files, and what was written to the outputs. -/
structure Memory where
  files : FileSystem
  output : String
  warnings : String
deriving Inhabited

/-- A host whose clock stands still. -/
def memoryHost : Host (StateM Memory) where
  workingDirectory := return "/" ++ String.intercalate "/" (← get).files.workingDirectory
  look path := return (← get).files.look path
  create path text := do
    let s ← get
    match s.files.create path text with
    | .ok files =>
      set { s with files }
      return .ok ()
    | .error e => return .error e
  print text := modify fun s => { s with output := s.output ++ text }
  warn text := modify fun s => { s with warnings := s.warnings ++ text }
  clock := return 0

end DocAnnotations
