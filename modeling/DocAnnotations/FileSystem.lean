import DocAnnotations.Text.Affix

/-!
# Files and paths

A `FileTree` is a file or a directory of named trees.  A `FileSystem` is a tree with a working
directory, from which paths that do not start with a slash are followed.

**Paths.**  Following a path name by name tells the different ways apart in which nothing is found:
a name that is not there, a file where a directory should be, and a name or path that is too long.

**Trees.**  Contents may be an error themselves, for files that are there but cannot be read.
-/

namespace DocAnnotations

open Text

/-! ## Errors -/

/-- Why the system refuses access to a path. -/
inductive SystemError where
  | notFound
  | notDirectory
  | isDirectory
  /-- The bytes of a file are not a text. -/
  | notText
  | nameTooLong
  | zeroInName
  /-- Some other reason, in the words of the system. -/
  | other (reason : String)
deriving DecidableEq, Inhabited

/-- The text of the error. -/
def SystemError.message : SystemError → String
  | notFound => "No such file or directory (os error 2)"
  | notDirectory => "Not a directory (os error 20)"
  | isDirectory => "Is a directory (os error 21)"
  | notText => "stream did not contain valid UTF-8"
  | nameTooLong => "File name too long (os error 36)"
  | zeroInName => "file name contained an unexpected NUL byte"
  | other reason => reason

/-! ## Paths -/

/-- The names between the slashes of a path. -/
def pathNames (path : String) : List String := path.splitOn "/"

/-- Whether a name in a path stays in the same directory. -/
def staysInPlace (name : String) : Bool := name.isEmpty || name == "."

/-- The name of the file that a path ends in; none if the path ends in a step upwards. -/
def fileName? (path : String) : Option String :=
  match ((pathNames path).filter fun name => !staysInPlace name).getLast? with
  | some name => if name = ".." then none else some name
  | none => none

/-- A name below a path. -/
def joinPath (path name : String) : String :=
  if path.endsWith "/" then path ++ name else path ++ "/" ++ name

/-- A path as seen from a directory; one that starts with a slash does not depend on it. -/
def absolutePath (directory path : String) : String :=
  if path.startsWith "/" then path else joinPath directory path

/-- How many bytes a name in a path may have. -/
def maxNameBytes : Nat := 255

/-- How many bytes a path may have. -/
def maxPathBytes : Nat := 4095

/-- Refuses a text that cannot be a path. -/
def checkPath (path : String) : Except SystemError Unit :=
  if path.toList.contains '\x00' then .error .zeroInName
  else if path.isEmpty then .error .notFound
  else if maxPathBytes < path.utf8ByteSize then .error .nameTooLong
  else .ok ()

/-! ## Trees -/

/-- A file, which may be unreadable, or a directory. -/
inductive FileTree where
  | file (contents : Except SystemError ByteArray)
  | directory (entries : List (String × FileTree))

instance : Inhabited FileTree := ⟨.directory []⟩

namespace FileTree

/-- Whether the tree is a directory. -/
def isDirectory : FileTree → Bool
  | directory _ => true
  | file _ => false

/-- The text of a file. -/
def readText : FileTree → Except SystemError String
  | directory _ => .error .isDirectory
  | file (.error e) => .error e
  | file (.ok bytes) =>
    match String.fromUTF8? bytes with
    | some text => .ok text
    | none => .error .notText

/-- Sets the tree of a name among the entries of a directory. -/
def setEntry (name : String) (tree : FileTree) :
    List (String × FileTree) → List (String × FileTree)
  | [] => [(name, tree)]
  | (n, t) :: entries =>
    if n = name then (name, tree) :: entries else (n, t) :: setEntry name tree entries

/-- The entries of a directory; a file has none. -/
def entries : FileTree → List (String × FileTree)
  | directory entries => entries
  | file _ => []

/-- The tree with another tree put at a place, given by the names that lead to it; the directories
on the way are made where they are missing. -/
def put (t : FileTree) : List String → FileTree → FileTree
  | [], tree => tree
  | name :: names, tree =>
    let below := (t.entries.lookup name).getD (directory [])
    directory (setEntry name (put below names tree) t.entries)

end FileTree

/-! ## File systems -/

/-- A tree and the names that lead to the working directory. -/
structure FileSystem where
  root : FileTree
  workingDirectory : List String
deriving Inhabited

/-- A place that was reached, and the directories on the way to it, innermost first. -/
structure Trail where
  tree : FileTree
  name : String
  above : List (FileTree × String)

namespace Trail

/-- The names that lead to the place. -/
def names (t : Trail) : List String :=
  ((t.name :: t.above.map Prod.snd).reverse).drop 1

/-- The directory around the place; the root is around itself. -/
def up (t : Trail) : Trail :=
  match t.above with
  | [] => t
  | (tree, name) :: above => ⟨tree, name, above⟩

/-- Follows names from a place.  Only directories can be passed. -/
def follow : List String → Trail → Except SystemError Trail
  | [], t => .ok t
  | name :: names, t =>
    match t.tree with
    | .file _ => .error .notDirectory
    | .directory entries =>
      if staysInPlace name then follow names t
      else if name = ".." then follow names t.up
      else if maxNameBytes < name.utf8ByteSize then .error .nameTooLong
      else match entries.lookup name with
        | some tree => follow names ⟨tree, name, (t.tree, t.name) :: t.above⟩
        | none => .error .notFound

end Trail

namespace FileSystem

variable (fs : FileSystem)

/-- Follows names from the root. -/
def fromRoot (names : List String) : Except SystemError Trail :=
  Trail.follow names ⟨fs.root, "", []⟩

/-- Follows the names of a path, from the root or the working directory. -/
def follow (absolute : Bool) (names : List String) : Except SystemError Trail := do
  if absolute then fs.fromRoot names
  else Trail.follow names (← fs.fromRoot fs.workingDirectory)

/-- The tree at a path. -/
def look (path : String) : Except SystemError FileTree := do
  checkPath path
  return (← fs.follow (path.startsWith "/") (pathNames path)).tree

/-- The file system with a text written to the file at a path.  The directory of the file must be
there. -/
def create (path text : String) : Except SystemError FileSystem := do
  checkPath path
  let names := pathNames path
  let closed := (names.reverse.dropWhile String.isEmpty).reverse
  match closed.getLast? with
  | none => throw .isDirectory
  | some name =>
    let place ← fs.follow (path.startsWith "/") closed.dropLast
    match place.tree with
    | .file _ => throw .notDirectory
    | .directory entries =>
      if name = "." || name = ".." then throw .isDirectory
      if maxNameBytes < name.utf8ByteSize then throw .nameTooLong
      let written := fs.root.put (place.names ++ [name]) (.file (.ok text.toUTF8))
      match entries.lookup name with
      | some (.directory _) => throw .isDirectory
      | some (.file _) =>
        if names = closed then return { fs with root := written } else throw .notDirectory
      | none => if names = closed then return { fs with root := written } else throw .isDirectory

end FileSystem

end DocAnnotations
