import TypeLang.Program

/-! # The executable -/

namespace TypeLang

/-- The fault behind an error of the machine's disk, if it is one that schemas and output meet. A
path without a NUL is refused as an argument only for its length. -/
def FileFault.ofError? : IO.Error → Option FileFault
  | .noFileOrDirectory .. => some .missing
  | .alreadyExists .. => some .occupied
  | .inappropriateType _ code _ => some (if code = 21 then .isDirectory else .notDirectory)
  | .invalidArgument .. => some .nameTooLong
  | _ => none

/-- Runs an action on a path and gives its fault as a value. -/
def catchFault {α : Type} (path : String) (action : IO α) : IO (Except FileFault α) := do
  if PathText.holdsNul path then return .error .nulInPath
  try
    return .ok (← action)
  catch e =>
    match FileFault.ofError? e with
    | some fault => return .error fault
    | none => throw e

/-- Whether a path leads to a directory. -/
def isDirectory (path : String) : IO Bool := do
  try
    (← IO.FS.realPath path).isDir
  catch _ =>
    return false

/-- Makes a directory. One that is there already will do. -/
def makeDirectory (path : String) : IO (Except FileFault Unit) := do
  match ← catchFault path (IO.FS.createDir path) with
  | .ok () => return .ok ()
  | .error fault => if ← isDirectory path then return .ok () else return .error fault

/-- Makes a directory, and up to `depth` of those above it if they are missing. -/
def makeWithParents : Nat → String → IO (Except FileFault Unit)
  | 0, path => makeDirectory path
  | depth + 1, path => do
    if path.isEmpty then return .ok ()
    match ← makeDirectory path, PathText.parent? path with
    | .error .missing, some parent =>
      match ← makeWithParents depth parent with
      | .ok () => makeDirectory path
      | .error fault => return .error fault
    | result, _ => return result

/-- The disk of the machine. -/
instance : Disk IO where
  readText path := do
    match ← catchFault path (IO.FS.readBinFile path) with
    | .ok bytes => return (String.fromUTF8? bytes).elim (.error .notText) .ok
    | .error fault => return .error fault
  makeDirectories path := makeWithParents ((PathText.names path).length + 1) path
  writeText path text := catchFault path (IO.FS.writeFile path text)

/-- How the program is called. -/
def usage : String :=
  "usage: (generate|dump|check) -t TYPES -f FUNCTIONS [--lenient] [-v]\n" ++
  "       generate also takes -o OUT [--namespace NAME] [--container NAME]\n"

end TypeLang

/-- Reads the arguments, runs the program and prints what it leaves. -/
def main (args : List String) : IO UInt32 := do
  match TypeLang.Invocation.parse? args with
  | none =>
    IO.eprint TypeLang.usage
    return 2
  | some i =>
    let outcome : TypeLang.Outcome ← i.run
    IO.eprint outcome.errors
    IO.print outcome.output
    return outcome.exitCode.toUInt32
