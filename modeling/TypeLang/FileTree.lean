import TypeLang.Error
import TypeLang.PathText

/-! # File trees

A tree of directories and files, seen from a working directory in it. Reading and writing fail as
they do on a disk: a component of a path must be there, all but the last must be directories, and
neither a name nor a path may be longer than the disk allows. -/

namespace TypeLang

/-- A place in a tree: names from the innermost outwards. The root is the empty list. -/
abbrev Location := List String

/-- What stands at a place. -/
inductive Node where
  | directory
  | file (contents : ByteArray)

/-- The directories and files of a tree, and the working directory, where relative paths start. The
working directory and those above it are there without being listed. -/
structure FileTree where
  home : Location := []
  entries : List (Location × Node) := []

namespace FileTree

/-- What stands at a place. -/
def node? (t : FileTree) (loc : Location) : Option Node :=
  if loc.isSuffixOf t.home then some .directory else t.entries.lookup loc

/-- Puts a node at its place in a list of entries, in place of what stood there. -/
def putEntry (loc : Location) (node : Node) : List (Location × Node) → List (Location × Node)
  | [] => [(loc, node)]
  | e :: es => if e.1 = loc then (loc, node) :: es else e :: putEntry loc node es

/-- Puts a node at a place. -/
def put (t : FileTree) (loc : Location) (node : Node) : FileTree :=
  { t with entries := putEntry loc node t.entries }

/-- The place where a path starts. -/
def start (t : FileTree) (path : String) : Location :=
  if PathText.isAbsolute path then [] else t.home

/-- The most bytes of a name. -/
def longestName : Nat := 255

/-- The most bytes of a path. -/
def longestPath : Nat := 4095

/-- Refuses a path that leads nowhere in any tree. -/
def checkPath (path : String) : Except FileFault Unit :=
  if PathText.holdsNul path then .error .nulInPath
  else if path.isEmpty then .error .missing
  else if path.utf8ByteSize > longestPath then .error .nameTooLong
  else .ok ()

/-- The place that names lead to from a given place. -/
def walk (t : FileTree) (loc : Location) : List String → Except FileFault Location
  | [] => .ok loc
  | name :: names =>
    match t.node? loc with
    | some .directory =>
      if name = "." then t.walk loc names
      else if name = ".." then t.walk loc.tail names
      else if name.utf8ByteSize > longestName then .error .nameTooLong
      else if (t.node? (name :: loc)).isSome then t.walk (name :: loc) names
      else .error .missing
    | _ => .error .notDirectory

/-- The contents of the file at a path. -/
def read (t : FileTree) (path : String) : Except FileFault ByteArray := do
  checkPath path
  match t.node? (← t.walk (t.start path) (PathText.names path)) with
  | some (.file contents) =>
    if PathText.endsInSlash path then .error .notDirectory else .ok contents
  | some .directory => .error .isDirectory
  | none => .error .missing

/-- Makes the directories that names lead through from a given place, as far as they are not there;
`made` says whether some had to be made on the way. A file in the way takes the place of the last
directory, or of any after the first that was made; before that it is a directory that is none. -/
def makeFrom (t : FileTree) (made : Bool) (loc : Location) :
    List String → Except FileFault Unit × FileTree
  | [] => (.ok (), t)
  | name :: names =>
    if name = "." then t.makeFrom made loc names
    else if name = ".." then t.makeFrom made loc.tail names
    else if name.utf8ByteSize > longestName then (.error .nameTooLong, t)
    else
      match t.node? (name :: loc) with
      | some .directory => t.makeFrom made (name :: loc) names
      | some (.file _) => (.error (if made || names.isEmpty then .occupied else .notDirectory), t)
      | none => (t.put (name :: loc) .directory).makeFrom true (name :: loc) names

/-- Makes a directory and those above it. The empty path asks for none. -/
def makeDirectories (t : FileTree) (path : String) : Except FileFault Unit × FileTree :=
  if path.isEmpty then (.ok (), t)
  else
    match checkPath path with
    | .error fault => (.error fault, t)
    | .ok () => t.makeFrom false (t.start path) (PathText.names path)

/-- Writes a file, in place of one that is there. -/
def write (t : FileTree) (path : String) (contents : ByteArray) : Except FileFault FileTree := do
  checkPath path
  match (PathText.names path).reverse with
  | [] => .error .isDirectory
  | name :: above =>
    let loc ← t.walk (t.start path) above.reverse
    match t.node? loc with
    | some .directory =>
      if PathText.endsInSlash path || name = "." || name = ".." then .error .isDirectory
      else if name.utf8ByteSize > longestName then .error .nameTooLong
      else
        match t.node? (name :: loc) with
        | some .directory => .error .isDirectory
        | _ => .ok (t.put (name :: loc) (.file contents))
    | _ => .error .notDirectory

/-- The path of a place, seen from a directory that lies `depth` levels below the root. -/
def pathFrom (depth : Nat) (loc : Location) : String := "/".intercalate (loc.reverse.drop depth)

/-- The files below a directory with their paths seen from it, in the order of the paths. -/
def filesBelow (t : FileTree) (path : String) : List (String × ByteArray) :=
  match checkPath path *> t.walk (t.start path) (PathText.names path) with
  | .ok dir =>
    let found := t.entries.filterMap fun (loc, node) =>
      match node with
      | .file contents =>
        if loc.length > dir.length && dir.isSuffixOf loc then
          some (pathFrom dir.length loc, contents)
        else none
      | .directory => none
    found.mergeSort fun a b => a.1 ≤ b.1
  | .error _ => []

end FileTree

end TypeLang
