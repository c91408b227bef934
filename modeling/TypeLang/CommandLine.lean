/-! # The command line

`Invocation.parse?` reads the arguments of the program: a command, the two schemas, and the options
of the command. -/

namespace TypeLang

/-- What the program is asked to do. -/
inductive Verb where
  | generate
  | dump
  | check
deriving DecidableEq, Repr

/-- The verb of a name. -/
def Verb.ofName? : String → Option Verb
  | "generate" => some .generate
  | "dump" => some .dump
  | "check" => some .check
  | _ => none

/-- An option that takes a value. -/
inductive Setting where
  | types
  | functions
  | out
  | rootNamespace
  | container
deriving DecidableEq, Repr

namespace Setting

/-- The setting of a long option. -/
def ofLong? : String → Option Setting
  | "types" => some types
  | "functions" => some functions
  | "out" => some out
  | "namespace" => some rootNamespace
  | "container" => some container
  | _ => none

/-- The setting of a short option. -/
def ofShort? : Char → Option Setting
  | 't' => some types
  | 'f' => some functions
  | 'o' => some out
  | _ => none

/-- Whether a verb takes the setting. -/
def fits (verb : Verb) : Setting → Bool
  | types | functions => true
  | out | rootNamespace | container => verb = .generate

/-- Whether the value is a path, which may not be empty. -/
def isPath : Setting → Bool
  | types | functions | out => true
  | rootNamespace | container => false

end Setting

/-- What the arguments have given so far. -/
structure Given where
  values : List (Setting × String) := []
  lenient : Bool := false
  verbosity : Nat := 0

namespace Given

/-- The value of a setting. -/
def value? (g : Given) (s : Setting) : Option String := g.values.lookup s

/-- Gives a setting its value, once. -/
def give? (g : Given) (s : Setting) (value : String) : Option Given :=
  if (g.value? s).isSome || (s.isPath && value.isEmpty) then none
  else some { g with values := (s, value) :: g.values }

/-- One more request for notices. -/
def louder (g : Given) : Given := { g with verbosity := g.verbosity + 1 }

/-- Asks for a lenient compilation, once. -/
def lenient? (g : Given) : Option Given :=
  if g.lenient then none else some { g with lenient := true }

end Given

namespace Invocation

/-- Whether an argument is an option. A lone dash is a value. -/
def isOption (arg : String) : Bool := arg.toList.head? == some '-' && arg != "-"

/-- Reads a group of short options. The last may be a setting that still lacks its value; any other
setting takes the rest of the group, after an equals sign if there is one. -/
def readGroup (verb : Verb) (g : Given) : List Char → Option (Given × Option Setting)
  | [] => some (g, none)
  | c :: cs =>
    if c = 'v' then readGroup verb g.louder cs
    else
      match (Setting.ofShort? c).filter (·.fits verb) with
      | none => none
      | some s =>
        match cs with
        | [] => some (g, some s)
        | '=' :: value => (g.give? s (String.ofList value)).map (·, none)
        | value => (g.give? s (String.ofList value)).map (·, none)

/-- Reads a long option, given without its dashes. A setting may still lack its value. -/
def readLong (verb : Verb) (g : Given) (option : List Char) : Option (Given × Option Setting) :=
  let name := String.ofList (option.takeWhile (· != '='))
  match name, option.dropWhile (· != '=') with
  | "verbose", [] => some (g.louder, none)
  | "lenient", [] => g.lenient?.map (·, none)
  | name, value =>
    match (Setting.ofLong? name).filter (·.fits verb), value with
    | none, _ => none
    | some s, [] => some (g, some s)
    | some s, _ :: value => (g.give? s (String.ofList value)).map (·, none)

/-- Reads an option. -/
def readOption (verb : Verb) (g : Given) (arg : String) : Option (Given × Option Setting) :=
  match arg.toList with
  | '-' :: '-' :: option => readLong verb g option
  | '-' :: c :: cs => readGroup verb g (c :: cs)
  | _ => none

/-- Reads the arguments after the verb. Two dashes may end them. -/
def readRest (verb : Verb) (g : Given) : List String → Option Given
  | [] => some g
  | arg :: args =>
    if arg = "--" then (if args.isEmpty then some g else none)
    else
      match readOption verb g arg with
      | none => none
      | some (g, none) => readRest verb g args
      | some (g, some s) =>
        match args with
        | [] => none
        | value :: args =>
          if isOption value then none
          else
            match g.give? s value with
            | none => none
            | some g => readRest verb g args
termination_by args => args.length

/-- Reads the arguments up to the verb: how often notices are asked for, the verb, and the rest. -/
def readVerb (verbosity : Nat) : List String → Option (Nat × Verb × List String)
  | [] => none
  | arg :: args =>
    match Verb.ofName? arg with
    | some verb => some (verbosity, verb, args)
    | none =>
      if arg = "--verbose" then readVerb (verbosity + 1) args
      else
        match arg.toList with
        | '-' :: 'v' :: cs =>
          if cs.all (· == 'v') then readVerb (verbosity + 1 + cs.length) args else none
        | _ => none

end Invocation

/-- What to do with the compiled schemas. -/
inductive Task where
  | generate (out : String) (rootNamespace container : Option String)
  | dump
  | check
deriving DecidableEq, Repr

/-- What the arguments ask for. -/
structure Invocation where
  task : Task
  types : String
  functions : String
  lenient : Bool
  verbosity : Nat
deriving DecidableEq, Repr

namespace Invocation

/-- Reads the arguments. Requests for notices after the verb replace those before it. -/
def parse? (args : List String) : Option Invocation := do
  let (before, verb, rest) ← readVerb 0 args
  let g ← readRest verb {} rest
  let types ← g.value? .types
  let functions ← g.value? .functions
  let task ← match verb with
    | .generate => do
      let out ← g.value? .out
      some (.generate out (g.value? .rootNamespace) (g.value? .container))
    | .dump => some .dump
    | .check => some .check
  some ⟨task, types, functions, g.lenient, if g.verbosity = 0 then before else g.verbosity⟩

end Invocation

end TypeLang
