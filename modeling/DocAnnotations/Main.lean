import DocAnnotations.Program

/-!
# The executable

The host of the real system, and the program run on it.
-/

namespace DocAnnotations

/-- An error of the system as the library names it. -/
def systemErrorOf : IO.Error → SystemError
  | .noFileOrDirectory .. => .notFound
  | .inappropriateType _ 21 _ => .isDirectory
  | .inappropriateType .. => .notDirectory
  | .permissionDenied .. => .other "Permission denied (os error 13)"
  | e => .other (toString e)

/-- The entries of the directory at a path. -/
def directoryEntries (path : String) : IO (Array IO.FS.DirEntry) :=
  (IO.FS.DirEntry.path ⟨path, "."⟩).readDir

/-- The file at a path. -/
def fileOnDisk (path : String) : IO FileTree := do
  match ← (IO.FS.readBinFile path).toBaseIO with
  | .ok bytes => return .file (.ok bytes)
  | .error e => return .file (.error (systemErrorOf e))

/-- The tree at a path below a directory; of files that hold no occurrences the contents are not
read. -/
partial def treeBelow (path name : String) : IO FileTree := do
  match ← (directoryEntries path).toBaseIO with
  | .ok entries =>
    let trees ← entries.toList.mapM fun e => do
      return (e.fileName, ← treeBelow (joinPath path e.fileName) e.fileName)
    return .directory trees
  | .error _ => if isOccurrenceFile name then fileOnDisk path else return .file (.ok .empty)

/-- The tree at a path. -/
def treeAt (path : String) : IO (Except SystemError FileTree) := do
  match ← (directoryEntries path).toBaseIO with
  | .ok _ => return .ok (← treeBelow path "")
  | .error _ =>
    match ← fileOnDisk path with
    | .file (.error .notFound) => return .error .notFound
    | .file (.error .notDirectory) => return .error .notDirectory
    | tree => return .ok tree

/-- The host of the real system. -/
def systemHost : Host IO where
  workingDirectory := return (← IO.currentDir).toString
  look := treeAt
  create path text := do
    match ← (IO.FS.writeFile path text).toBaseIO with
    | .ok _ => return .ok ()
    | .error e => return .error (systemErrorOf e)
  print := IO.print
  warn := IO.eprint
  clock := IO.monoMsNow

end DocAnnotations

/-- Runs the program. -/
def main (arguments : List String) : IO UInt32 := do
  return (← DocAnnotations.runProgram DocAnnotations.systemHost arguments).toUInt32
