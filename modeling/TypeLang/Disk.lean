import TypeLang.Compilation
import TypeLang.FileTree

/-! # Compiling files

Reading schemas from a disk and writing the generated files to it. A disk is a file tree, or the
disk of the machine. -/

namespace TypeLang

/-- What a compilation needs of a disk. -/
class Disk (m : Type → Type) where
  /-- The text of a file. -/
  readText : String → m (Except FileFault String)
  /-- Makes a directory and those above it. -/
  makeDirectories : String → m (Except FileFault Unit)
  /-- Writes a file, in place of one that is there. -/
  writeText : String → String → m (Except FileFault Unit)

/-- A file tree as a disk. -/
instance : Disk (StateM FileTree) where
  readText path := fun t =>
    (match t.read path with
      | .ok bytes => (String.fromUTF8? bytes).elim (.error .notText) .ok
      | .error fault => .error fault, t)
  makeDirectories path := fun t => t.makeDirectories path
  writeText path text := fun t =>
    match t.write path text.toUTF8 with
    | .ok t' => (.ok (), t')
    | .error fault => (.error fault, t)

namespace Disk

variable {m : Type → Type} [Monad m] [Disk m]

/-- The text of a schema file. -/
def readSchema (path : String) : m (Except CompileError String) := do
  return (← readText path).mapError (.file path)

/-- Writes one file below a directory, and makes the directories on the way. -/
def writeFile (out : String) (f : OutputFile) : m (Except CompileError Unit) := do
  let path := PathText.join out f.path
  let parent := (PathText.parent? path).getD ""
  match ← makeDirectories parent with
  | .error fault => return .error (.file parent fault)
  | .ok () => return (← writeText path f.contents).mapError (.file path)

/-- Writes files below a directory, up to the first that cannot be written. -/
def writeFiles (out : String) : List OutputFile → m (Except CompileError Unit)
  | [] => pure (.ok ())
  | f :: fs => do
    match ← writeFile out f with
    | .error e => return .error e
    | .ok () => writeFiles out fs

/-- Writes files below a directory and tells how many there are. -/
def writeAll (out : String) (files : List OutputFile) :
    m (Except CompileError Unit × Array Notice) := do
  match ← writeFiles out files with
  | .error e => return (.error e, #[])
  | .ok () => return (.ok (), #[.written files.length out])

/-- Reads a schema of types and one of functions, and lets a compilation go on with them. -/
def withSchemas {α : Type} (types functions : String)
    (k : String × String → String × String → m (Except CompileError α × Array Notice)) :
    m (Except CompileError α × Array Notice) := do
  match ← readSchema types with
  | .error e => return (.error e, #[])
  | .ok typesText =>
    match ← readSchema functions with
    | .error e => return (.error e, #[])
    | .ok functionsText => k (types, typesText) (functions, functionsText)

/-- Compiles two schema files and writes what they give below a directory. -/
def compileFiles (o : Options) (types functions out : String) :
    m (Except CompileError (List OutputFile) × Array Notice) :=
  withSchemas types functions fun types functions =>
    match (Compile.schemas o types functions).run {} with
    | .error e c => return (.error e, c.log)
    | .ok files c => do
      let (written, notices) ← writeAll out files
      return (written.map fun () => files, c.log ++ notices)

/-- Compiles two schema files as far as the registry, and verifies it. -/
def checkFiles (o : Options) (types functions : String) :
    m (Except CompileError Registry × Array Notice) :=
  withSchemas types functions fun types functions =>
    match (do Compile.addBoth o types functions; Compile.verify o : Compile Unit).run {} with
    | .error e c => return (.error e, c.log)
    | .ok () c => return (.ok c.registry, c.log)

end Disk

end TypeLang
