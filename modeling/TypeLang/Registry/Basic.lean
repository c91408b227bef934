import TypeLang.Text.Escape
import TypeLang.TypeToken

/-! # The type registry

A registry holds one record for every type that was named so far, declared or not, and every
function. Records are addressed by their place. An index beside the records leads from a key to a
place: the key is the name, and for a generic type the record of its argument. A second index leads
from the name of a function to its place. A record starts empty when its type is first named and is
filled in when the declaration comes. -/

namespace TypeLang

open Text

/-- The place of a record in its registry. Places are numbers of any size: a registry of 2^32 records,
where numbers of 32 bits run out, is left out. -/
abbrev TypeId := Nat

/-- A field of a type or an argument of a function. -/
structure Field where
  name : String
  description : Option String
  type : TypeId
deriving DecidableEq, Repr

/-- What tells types apart: `vector<int53>` is the name `vector` with the record of `int53`. -/
structure TypeKey where
  name : String
  argument : Option TypeId
deriving DecidableEq, Repr

/-- What a registry knows of a type. -/
structure TypeRecord where
  name : String
  /-- The record of the argument of a generic type. -/
  argument : Option TypeId := none
  description : Option String := none
  fields : List Field := []
  /-- The union that the type belongs to. -/
  base : Option TypeId := none
  isUnion : Bool := false
  scalar : Option Scalar := none
  isDeclared : Bool := false
deriving DecidableEq, Repr

namespace TypeRecord

/-- The record of a scalar, which counts as declared. -/
def ofScalar (s : Scalar) : TypeRecord :=
  { name := s.codeName, scalar := some s, isDeclared := true }

/-- Whether the type has a declaration of its own, so that it cannot be a union. -/
def isConcrete (r : TypeRecord) : Bool := r.isDeclared && r.scalar.isNone

end TypeRecord

/-- What a registry knows of a function. -/
structure FunctionRecord where
  name : String
  description : Option String
  arguments : List Field
  result : TypeId
deriving DecidableEq, Repr

/-- Why a registry refuses an operation; each cause names the type or function. -/
inductive RegistryError where
  | malformed (token : String)
  | declaredTwice (type : String)
  | unionWithFields (type : String)
  | concreteAsUnion (type : String)
  | functionTwice (function : String)
deriving DecidableEq, Repr

/-- The message. -/
def RegistryError.message : RegistryError → String
  | malformed token => "Malformed type " ++ visible token ++ ": unbalanced angle brackets"
  | declaredTwice type => "The type " ++ visible type ++ " is declared twice"
  | unionWithFields type =>
    "The type " ++ visible type ++ " is an abstract base and cannot have fields"
  | concreteAsUnion type =>
    "The type " ++ visible type ++ " is declared as a concrete type and cannot be used as a union"
  | functionTwice function => "The function " ++ visible function ++ " is declared twice"

/-- All types and functions named so far, in the order in which they came, with the places that keys and
names lead to, the newest first. -/
structure Registry where
  records : Array TypeRecord
  functions : Array FunctionRecord
  index : List (TypeKey × TypeId)
  functionIndex : List (String × Nat)
deriving DecidableEq, Repr

/-- Steps that change a registry and may be refused. A refused step keeps what was changed
before. -/
abbrev Admission := EStateM RegistryError Registry

namespace Registry

/-- The number of records. -/
def size (g : Registry) : Nat := g.records.size

/-- The record at a place. -/
def get? (g : Registry) (id : TypeId) : Option TypeRecord := g.records[id]?

/-- The record at a place; a place without one reads as a type without a name. -/
def get (g : Registry) (id : TypeId) : TypeRecord := (g.get? id).getD { name := "" }

/-- The place that a key leads to. -/
def find? (g : Registry) (key : TypeKey) : Option TypeId := g.index.lookup key

/-- Adds a record, to which the key leads from now on. -/
def insert (g : Registry) (key : TypeKey) (r : TypeRecord) : TypeId × Registry :=
  (g.size, { g with records := g.records.push r, index := (key, g.size) :: g.index })

/-- Adds a scalar under its code name. -/
def seed (g : Registry) (s : Scalar) : Registry := (g.insert ⟨s.codeName, none⟩ (.ofScalar s)).2

/-- The registry that holds the scalars and nothing else. -/
def initial : Registry := Scalar.all.foldl seed ⟨#[], #[], [], []⟩

/-- The place of the record of a scalar, in every registry. -/
def scalarId (s : Scalar) : TypeId := Scalar.all.idxOf s

/-! ### Naming types -/

/-- The place that a key leads to, and the registry that has it; a new record takes the given name and
the argument of its key. -/
def internKey (g : Registry) (key : TypeKey) (name : String) : TypeId × Registry :=
  match g.find? key with
  | some id => (id, g)
  | none => g.insert key { name, argument := key.argument }

/-- The place of the record that a token names, made if it is not there. Arguments come first. -/
def resolve (token : String) : Admission TypeId :=
  match _h : TokenLevel.ofToken token with
  | .malformed t => throw (.malformed t)
  | .generic outer inner => do
    let argument ← resolve inner
    modifyGet fun g =>
      g.internKey ⟨outer, some argument⟩ (outer ++ "<" ++ (g.get argument).name ++ ">")
  | .bare t =>
    if _hbytes : t = bytesToken then resolve bytesExpansion
    else modifyGet fun g => g.internKey ⟨normalize t, none⟩ (normalize t)
termination_by TokenLevel.weight token
decreasing_by
  · exact TokenLevel.weight_inner_lt _h
  · exact TokenLevel.weight_expansion_lt _h _hbytes

/-- Refuses a token that is not well formed at every level. -/
def checkToken (token : String) : Except RegistryError Unit :=
  match _h : TokenLevel.ofToken token with
  | .malformed t => .error (.malformed t)
  | .generic _ inner => checkToken inner
  | .bare _ => .ok ()
termination_by TokenLevel.weight token
decreasing_by exact TokenLevel.weight_inner_lt _h

/-- The place of the record that a token names, if there is one. A token that is not well formed is
looked up like one without brackets. -/
def lookup? (g : Registry) (token : String) : Option TypeId :=
  match _h : TokenLevel.ofToken token with
  | .malformed t => g.find? ⟨normalize t, none⟩
  | .generic outer inner => do
    let argument ← g.lookup? inner
    g.find? ⟨outer, some argument⟩
  | .bare t =>
    if _hbytes : t = bytesToken then g.lookup? bytesExpansion else g.find? ⟨normalize t, none⟩
termination_by TokenLevel.weight token
decreasing_by
  · exact TokenLevel.weight_inner_lt _h
  · exact TokenLevel.weight_expansion_lt _h _hbytes

/-! ### Filling records in -/

/-- Changes the record at a place. -/
def update (g : Registry) (id : TypeId) (f : TypeRecord → TypeRecord) : Registry :=
  { g with records := g.records.modify id f }

/-- Sets the description of a type. -/
def describe (g : Registry) (id : TypeId) (description : Option String) : Registry :=
  g.update id ({ · with description })

/-- Names a type and sets its description. -/
def declare (token : String) (description : Option String) : Admission TypeId := do
  let id ← resolve token
  modify (·.describe id description)
  pure id

/-- Gives a type its fields, once. -/
def define (g : Registry) (id : TypeId) (fields : List Field) : Except RegistryError Registry :=
  let r := g.get id
  if r.isDeclared then .error (.declaredTwice r.name)
  else if r.isUnion then .error (.unionWithFields r.name)
  else .ok (g.update id ({ · with fields, isDeclared := true }))

/-- Sets the union that a type belongs to. -/
def setBase (g : Registry) (id base : TypeId) : Registry :=
  g.update id ({ · with base := some base })

/-- Makes a type a union, for good. -/
def markUnion (g : Registry) (id : TypeId) : Except RegistryError Registry :=
  let r := g.get id
  if r.isConcrete then .error (.concreteAsUnion r.name)
  else .ok (g.update id ({ · with isUnion := true }))

/-! ### Functions -/

/-- The function of a given name. -/
def function? (g : Registry) (name : String) : Option FunctionRecord :=
  (g.functionIndex.lookup name).bind (g.functions[·]?)

/-- Adds a function whose name is new. -/
def addFunction (g : Registry) (f : FunctionRecord) : Except RegistryError Registry :=
  if (g.functionIndex.lookup f.name).isSome then .error (.functionTwice f.name)
  else .ok { g with
    functions := g.functions.push f, functionIndex := (f.name, g.functions.size) :: g.functionIndex }

/-! ### Questions -/

/-- The members of a union, in the order of the registry. -/
def variants (g : Registry) (base : TypeId) : List TypeId :=
  (List.range g.size).filter fun id => (g.get id).base == some base && id != base

/-- The record at the end of the chain of arguments, and the length of the chain. An argument is
older than the type built from it. -/
def leaf (g : Registry) (id : TypeId) : TypeId × Nat :=
  match (g.get id).argument with
  | some arg =>
    if arg < id then
      let (l, depth) := g.leaf arg
      (l, depth + 1)
    else (id, 0)
  | none => (id, 0)
termination_by id

end Registry

end TypeLang
