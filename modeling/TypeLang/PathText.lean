/-! # Paths

A path is a text whose components are divided by slashes. Two texts may be one path. -/

namespace TypeLang.PathText

/-- Whether a path starts at the root. -/
def isAbsolute (path : String) : Bool := path.toList.head? == some '/'

/-- The path of `file` seen from `dir`. An absolute path stands for itself. -/
def join (dir file : String) : String :=
  if isAbsolute file then file
  else if dir.isEmpty || dir.toList.getLast? == some '/' then dir ++ file
  else dir ++ "/" ++ file

/-- Drops slashes and single dots at the end that name no component. The path is given backwards. -/
def dropIdle : List Char → List Char
  | '/' :: c :: cs => dropIdle (c :: cs)
  | '.' :: '/' :: cs => dropIdle ('/' :: cs)
  | cs => cs

/-- The path without its last component. The empty path and the root have none. -/
def parent? (path : String) : Option String :=
  match dropIdle path.toList.reverse with
  | [] => none
  | ['/'] => none
  | cs => some (String.ofList (dropIdle (cs.dropWhile (· != '/'))).reverse)

/-- The names in a path, single and double dots among them. -/
def names (path : String) : List String :=
  ((path.toList.splitOnP (· == '/')).filter (!·.isEmpty)).map String.ofList

/-- The components of a path, by which paths are told apart: the root, and the names. A single dot is a
component only in front of a relative path. -/
def components (path : String) : List String :=
  if isAbsolute path then "/" :: (names path).filter (· ≠ ".")
  else (names path).take 1 ++ ((names path).drop 1).filter (· ≠ ".")

/-- Whether a path holds the character that ends a path, and so names nothing. -/
def holdsNul (path : String) : Bool := path.toList.contains '\x00'

/-- Whether a path ends in a slash, so that it can only name a directory. -/
def endsInSlash (path : String) : Bool := path.toList.getLast? == some '/'

end TypeLang.PathText
