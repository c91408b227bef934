import TypeLang.Registry.Admission
import TypeLang.Registry.Undeclared
import TypeLang.Schema
import TypeLang.Source.Emission
import TypeLang.Source.Writer

/-! # Compilations

A compilation gathers schemas in a registry, sees to it that every type is declared, and lays out
the units. -/

namespace TypeLang

/-- The options of a compilation. -/
structure Options where
  /-- Whether the first fault ends the compilation; otherwise faults are skipped with a warning. -/
  strict : Bool := true
  code : CodeOptions := {}
deriving DecidableEq, Repr

/-- What a compilation has gathered so far. -/
structure Compilation where
  registry : Registry := .initial
  log : Array Notice := #[]

/-- A file to be written, with its path below the output directory. -/
structure OutputFile where
  path : String
  contents : String
deriving Repr

/-- Paths are compared by their components. -/
instance : BEq OutputFile where
  beq f f' := PathText.components f.path == PathText.components f'.path && f.contents == f'.contents

/-- How many items were declared and how many were refused. -/
structure Tally where
  declared : Nat := 0
  skipped : Nat := 0
deriving DecidableEq, Repr

/-- Steps of a compilation. An error keeps what was gathered before. -/
abbrev Compile := EStateM CompileError Compilation

namespace Compile

/-- Tells something. -/
def tell (n : Notice) : Compile Unit :=
  modify fun c => { c with log := c.log.push n }

/-- Tells several things in order. -/
def tellAll (ns : List Notice) : Compile Unit :=
  modify fun c => { c with log := c.log ++ ns }

/-- Ends the compilation on an error. -/
def ofExcept {α : Type} : Except CompileError α → Compile α
  | .ok a => pure a
  | .error e => throw e

/-- Lets the registry take a step, whose refusal is a result like any other. -/
def attempt {α : Type} (a : Admission α) : Compile (Except RegistryError α) := fun c =>
  match a.run c.registry with
  | .ok x g => .ok (.ok x) { c with registry := g }
  | .error e g => .ok (.error e) { c with registry := g }

/-- Adds one item and counts it. A strict compilation ends if it is refused. -/
def addItem (strict : Bool) (file : String) (kind : Admission.Kind) (t : Tally) (i : Item) :
    Compile Tally := do
  match ← attempt (Admission.addItem kind i) with
  | .ok .declared => pure { t with declared := t.declared + 1 }
  | .ok (.passedOver name) => do
    tell (.scalarConstructor name)
    pure t
  | .ok .documented => pure t
  | .error cause =>
    if strict then throw (.item file i.line cause)
    else do
      tell (.refusedItem file i.line cause)
      pure { t with skipped := t.skipped + 1 }

/-- Adds items in order. -/
def addItems (strict : Bool) (file : String) (kind : Admission.Kind) (is : List Item) :
    Compile Tally :=
  is.foldlM (addItem strict file kind) {}

/-- Adds the schema of a file. -/
def add (o : Options) (kind : Admission.Kind) (file text : String) : Compile Tally := do
  tellAll (Schema.notices o.strict file text)
  let is ← ofExcept (Schema.items o.strict file text)
  let t ← addItems o.strict file kind is
  tell (.added file is.length t.declared t.skipped)
  pure t

/-- Sees to it that every type is declared. A strict compilation ends at the first that is not; any
other tells of them all. -/
def verify (o : Options) : Compile Unit := do
  let found := (← get).registry.undeclared
  if o.strict then
    match found.head? with
    | some u => throw (.undeclared u)
    | none => pure ()
  else tellAll (found.map .undeclared)

/-- Verifies the registry and lays out every unit. -/
def generate (o : Options) : Compile (List OutputFile) := do
  verify o
  let files := (← get).registry.units.map fun u => ⟨u.path o.code, u.render o.code⟩
  tell (.generated files.length)
  pure files

/-- Adds a schema of types and one of functions, each with the name of its file. -/
def addBoth (o : Options) (types functions : String × String) : Compile Unit := do
  let _ ← add o .types types.1 types.2
  let _ ← add o .functions functions.1 functions.2

/-- Compiles a schema of types and one of functions. -/
def schemas (o : Options) (types functions : String × String) : Compile (List OutputFile) := do
  addBoth o types functions
  generate o

end Compile

/-- The registry and the output files of two schemas, and all that was told. -/
def compileSchemas (o : Options) (types functions : String) :
    Except CompileError (Registry × List OutputFile) × Array Notice :=
  match (Compile.schemas o ("types", types) ("functions", functions)).run {} with
  | .ok files c => (.ok (c.registry, files), c.log)
  | .error e c => (.error e, c.log)

end TypeLang
