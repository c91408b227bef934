import TypeLang.Naming
import TypeLang.Registry.Basic
import TypeLang.Source.Unit

/-! # From the registry to units

Every concrete type and every function has a unit. A type whose union has another name is nested in
the class of the union. -/

namespace TypeLang.Registry

open Naming

/-- The union of a type, if its class has another name. Names are compared as they are generated,
and their case does not matter. -/
def distinctBase? (g : Registry) (r : TypeRecord) : Option TypeRecord :=
  r.base.bind fun id =>
    let base := g.get id
    if sameLetters (pascal base.name) (pascal r.name) then none else some base

/-- The spelling of a type that has no argument. -/
def leafCodeType (g : Registry) (r : TypeRecord) : CodeType :=
  match r.scalar with
  | some s => .scalar s
  | none => .named ((g.distinctBase? r).map fun base => pascal base.name) (pascal r.name)

/-- The spelling of a type: a sequence for each argument on the way to the leaf. -/
def codeType (g : Registry) (id : TypeId) : CodeType :=
  match (g.get id).argument with
  | some arg => if arg < id then .sequence (g.codeType arg) else g.leafCodeType (g.get id)
  | none => g.leafCodeType (g.get id)
termination_by id

/-- The members of a class for its fields. -/
def members (g : Registry) (className : String) (fields : List Field) : List Member :=
  fields.map fun f =>
    let type := g.codeType f.type
    ⟨member f.name className, f.name, f.description, type, type.encoding⟩

/-- Whether a type has a unit of its own. -/
def hasUnit (g : Registry) (id : TypeId) : Bool :=
  let r := g.get id
  r.scalar.isNone && r.argument.isNone && !r.isUnion

/-- The class of a type, which extends `parent`. -/
def typeClass (g : Registry) (r : TypeRecord) (parent : Parent) : ClassDef :=
  ⟨pascal r.name, r.description, parent, some r.name, g.members (pascal r.name) r.fields, []⟩

/-- The unit of a type. -/
def typeUnit (g : Registry) (id : TypeId) : SourceUnit :=
  let r := g.get id
  let top :=
    match g.distinctBase? r with
    | some base =>
      let name := pascal base.name
      ⟨name, base.description, .root, none, [], [g.typeClass r (.union name)]⟩
    | none => g.typeClass r .root
  ⟨.object, capitalize r.name, top⟩

/-- The unit of a function. -/
def functionUnit (g : Registry) (f : FunctionRecord) : SourceUnit :=
  let name := pascal f.name
  ⟨.function, capitalize f.name, ⟨name, f.description, .function (g.codeType f.result), some f.name,
    g.members name f.arguments, []⟩⟩

/-- Every unit: the types in the order of the registry, then the functions. -/
def units (g : Registry) : List SourceUnit :=
  ((List.range g.size).filter g.hasUnit).map g.typeUnit ++ g.functions.toList.map g.functionUnit

end TypeLang.Registry
