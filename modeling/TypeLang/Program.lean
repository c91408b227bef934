import TypeLang.CommandLine
import TypeLang.Disk
import TypeLang.Json
import TypeLang.Text.Escape

/-! # The program

What the program does for an invocation, on any disk. -/

namespace TypeLang

/-- What a run of the program leaves: its exit code and what it printed. -/
structure Outcome where
  exitCode : Nat
  output : String
  errors : String
deriving DecidableEq, Repr

/-- Whether a notice is shown at a verbosity: warnings always. -/
def Notice.isShown (verbosity : Nat) (n : Notice) : Bool :=
  match n.level with
  | .warn => true
  | .info => verbosity ≥ 1
  | .debug => verbosity ≥ 2

/-- The line of a notice on a terminal. Levels are set flush right in five columns. -/
def Notice.line (n : Notice) : String :=
  let level := n.level.text
  String.ofList (List.replicate (5 - level.length) ' ') ++ level ++ " " ++ Text.terminalText n.text ++ "\n"

/-- The lines of the notices that are shown. -/
def shownLines (verbosity : Nat) (log : Array Notice) : String :=
  String.join ((log.toList.filter (·.isShown verbosity)).map Notice.line)

namespace Invocation

/-- The options of an invocation. -/
def options (i : Invocation) : Options :=
  let code : CodeOptions := {}
  match i.task with
  | .generate _ rootNamespace container =>
    { strict := !i.lenient
      code := { code with
        rootNamespace := rootNamespace.getD code.rootNamespace
        container := container.getD code.container } }
  | _ => { strict := !i.lenient }

/-- The outcome of a compilation: what it printed if it succeeded, and otherwise its error after the
notices. -/
def outcome (i : Invocation) (result : Except CompileError String) (log : Array Notice) : Outcome :=
  let shown := shownLines i.verbosity log
  match result with
  | .ok output => ⟨0, output, shown⟩
  | .error e => ⟨1, "", shown ++ "Error: " ++ e.inspect ++ "\n"⟩

variable {m : Type → Type} [Monad m] [Disk m]

/-- Runs an invocation. -/
def run (i : Invocation) : m Outcome := do
  match i.task with
  | .generate out _ _ =>
    let (result, log) ← Disk.compileFiles i.options i.types i.functions out
    return i.outcome (result.map fun files =>
      "Generated " ++ toString files.length ++ " files in " ++ out ++ "\n") log
  | .dump =>
    let (result, log) ← Disk.checkFiles i.options i.types i.functions
    return i.outcome (result.map fun g => g.toJson.pretty 0 ++ "\n") log
  | .check =>
    let (result, log) ← Disk.checkFiles i.options i.types i.functions
    return i.outcome (result.map fun g =>
      toString g.size ++ " types, " ++ toString g.functions.size ++ " functions, " ++
        toString g.units.length ++ " units\n") log

end Invocation

end TypeLang
