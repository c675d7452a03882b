import DocAnnotations.Batch

/-!
# Reports in SARIF

The Static Analysis Results Interchange Format (SARIF) 2.1.0 describes a run of a tool: the rules it
knows, how it was invoked, the files it read and the results.  Parts that hold nothing are left
out, and the parts of an object are in the order of their names.
-/

namespace DocAnnotations.Sarif

/-- The name of the tool, also in front of the names of its properties. -/
def toolName : String := "backport175"

/-- The location of the schema of the format. -/
def schemaLocation : String :=
  "https://schemastore.azurewebsites.net/schemas/json/sarif-2.1.0.json"

/-! ## Parts of a run -/

/-- A file that was read. -/
structure Artifact where
  uri : String
  /-- The length in bytes. -/
  length : Nat
deriving DecidableEq, Inhabited

/-- The document of a file that was read. -/
def Artifact.toJson (a : Artifact) : Json :=
  .object [("length", .integer a.length), ("location", .object [("uri", .string a.uri)]),
    ("roles", .array [.string "analysisTarget"])]

/-- How the tool was invoked, and what it counted and measured. -/
structure Invocation where
  arguments : List String
  scanMilliseconds : Nat
  compileMilliseconds : Nat
  artifactCount : Nat
  summary : Summary
deriving DecidableEq, Inhabited

/-- A property of the tool's own. -/
def property (name : String) (n : Nat) : String × Json := (toolName ++ "." ++ name, .integer n)

/-- The document of an invocation; it was successful if nothing failed. -/
def Invocation.toJson (i : Invocation) : Json :=
  .object [("arguments", .array (i.arguments.map .string)),
    ("commandLine", .string (String.intercalate " " i.arguments)),
    ("executionSuccessful", .bool (!i.summary.hasFailures)),
    ("properties", .object
      [property "accepted_count" i.summary.accepted,
       property "artifact_count" i.artifactCount,
       property "compile_ms" i.compileMilliseconds,
       property "occurrence_count" i.summary.occurrences,
       property "scan_ms" i.scanMilliseconds,
       property "skipped_count" i.summary.skipped])]

/-- The document of a rule. -/
def rule (code : DiagnosticCode) : Json :=
  .object [("id", .string code.id), ("name", .string code.title),
    ("shortDescription", .object [("text", .string code.description)])]

/-! ## Results -/

/-- Where a member stands in the program. -/
def logicalLocation (className : String) (member : Member) : Json :=
  let (kind, name) := match member with
    | .wholeClass => ("type", className)
    | .field name => ("member", className ++ "." ++ name)
    | .method name descriptor => ("function", className ++ "." ++ name ++ descriptor)
  .object [("kind", .string kind), ("name", .string name)]

/-- Where a line stands in a file, as a member of an object.  Without a file there is no place, and
the line 0 stands for none. -/
def physicalLocation (file : String) (line : Nat) : List (String × Json) :=
  if file.isEmpty then []
  else
    let region := if line = 0 then [] else [("region", .object [("startLine", .integer line)])]
    [("physicalLocation",
      .object (("artifactLocation", .object [("uri", .string file)]) :: region))]

/-- The document of a diagnostic. -/
def result (d : Diagnostic) : Json :=
  .object
    [("locations", .array
      [.object (("logicalLocations", .array [logicalLocation d.className d.member])
        :: physicalLocation d.file d.line)]),
     ("message", .object [("text", .string d.message)]),
     ("ruleId", .string d.code.id)]

/-! ## The document -/

/-- The report on one run. -/
def report (artifacts : List Artifact) (invocation : Invocation) (diagnostics : List Diagnostic) :
    Json :=
  let files := if artifacts.isEmpty then []
    else [("artifacts", .array (artifacts.map Artifact.toJson))]
  .object
    [("$schema", .string schemaLocation),
     ("runs", .array
      [.object (files ++
        [("invocations", .array [invocation.toJson]),
         ("results", .array (diagnostics.map result)),
         ("tool", .object [("driver", .object
            [("name", .string toolName),
             ("rules", .array (DiagnosticCode.all.map rule))])])])]),
     ("version", .string "2.1.0")]

end DocAnnotations.Sarif
