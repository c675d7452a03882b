import DocAnnotations.FileSystem
import DocAnnotations.Sarif

/-!
# Reading schemas and occurrences

Occurrences are read from one file, or from all occurrence files below a directory.

**Occurrence files.**  These are the files whose name ends in `.json`.  A `Scan` collects what they
hold, with the files as artifacts; its parts are appended file by file.

**Directories.**  The entries of a directory are visited in the order of their paths, whatever order
they are listed in; the first file that cannot be read ends the scan, and the error names the file.
-/

namespace DocAnnotations

open Text

/-! ## Errors -/

/-- Why an input cannot be used. -/
inductive InputError where
  | unsupportedFile (path : String)
  | unreadableFile (path : String) (cause : SystemError)
  | malformedFile (path : String) (cause : Json.DecodeError)
  | unreadableSchema (path : String) (cause : SystemError)
  | invalidSchema (path : String) (cause : SchemaError)
deriving DecidableEq

/-- What failed, and behind it why. -/
def InputError.chain : InputError → List String
  | unsupportedFile path => [s!"unsupported input file: {path}"]
  | unreadableFile path cause => [s!"failed to read {path}", cause.message]
  | malformedFile path cause =>
    [s!"failed to parse {path}",
     s!"malformed occurrences at {Json.renderPath cause.path}: {cause.fault.message}"]
  | unreadableSchema path cause => [s!"failed to read schema {path}", cause.message]
  | invalidSchema path cause => [s!"failed to load schema {path}", cause.message]

/-- The error on one line. -/
def InputError.message (e : InputError) : String := String.intercalate ": " e.chain

/-! ## Schemas -/

/-- The index of the schema in a file. -/
def loadSchema (path : String) (tree : Except SystemError FileTree) :
    Except InputError TypeIndex := do
  let text ← (tree.bind FileTree.readText).mapError (.unreadableSchema path)
  (TypeIndex.ofText text).mapError (.invalidSchema path)

/-! ## Occurrence files -/

/-- Occurrence files end in `.json`; a name that is nothing but this end does not count. -/
def isOccurrenceFile (name : String) : Bool :=
  match dropEnd? ".json".toList name.toList with
  | some stem => !stem.isEmpty
  | none => false

/-- What was read: the files and their occurrences, in the order of reading. -/
structure Scan where
  artifacts : List Sarif.Artifact
  occurrences : List Occurrence
deriving DecidableEq, Inhabited

namespace Scan

/-- Nothing was read. -/
def empty : Scan := ⟨[], []⟩

/-- What two scans read, one after the other. -/
def append (s t : Scan) : Scan := ⟨s.artifacts ++ t.artifacts, s.occurrences ++ t.occurrences⟩

/-- The uniform resource identifier of a file. -/
def fileUri (directory path : String) : String := "file://" ++ absolutePath directory path

/-- Reads one occurrence file, given the working directory. -/
def ofFile (directory path : String) (file : FileTree) : Except InputError Scan := do
  let text ← file.readText.mapError (.unreadableFile path)
  let occurrences ← (Occurrence.decoder.list.ofString text).mapError (.malformedFile path)
  return ⟨[⟨fileUri directory path, text.utf8ByteSize⟩], occurrences⟩

end Scan

/-! ## Directories -/

namespace Scan

mutual

/-- Adds to a scan what is found at a path, given the last name on it.  A file is read if its name
is that of an occurrence file; the entries of a directory are visited in the order of their
paths. -/
def visit (directory path name : String) : FileTree → Scan → Except InputError Scan
  | .file contents, s => do
    if isOccurrenceFile name then return s.append (← ofFile directory path (.file contents))
    else return s
  | .directory entries, s =>
    (sortedBy Prod.fst (visits directory path entries)).foldlM (fun s entry => entry.2 s) s

/-- The visits to the entries of a directory, each with the path of its entry. -/
def visits (directory path : String) :
    List (String × FileTree) → List (String × (Scan → Except InputError Scan))
  | [] => []
  | (name, tree) :: entries =>
    (joinPath path name, visit directory (joinPath path name) name tree)
      :: visits directory path entries

end

/-- Reads the occurrence file at a path, or those below the directory at a path. -/
def ofPath (directory path : String) (tree : Except SystemError FileTree) :
    Except InputError Scan :=
  match tree with
  | .ok (.directory entries) => visit directory path "" (.directory entries) empty
  | tree =>
    if ((fileName? path).map isOccurrenceFile).getD false then
      match tree with
      | .ok file => ofFile directory path file
      | .error e => .error (.unreadableFile path e)
    else .error (.unsupportedFile path)

end Scan

end DocAnnotations
