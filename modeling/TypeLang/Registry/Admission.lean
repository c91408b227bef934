import TypeLang.Item
import TypeLang.Registry.Basic

/-! # Admission of items

How a registry takes in the items of a schema. A type declaration fills in its record and joins its
union, a function declaration adds a function, and the documentation of a union describes it. All
that could be refused is looked at before anything is changed. -/

namespace TypeLang

namespace Admission

/-- Takes a step that gives no value. -/
def change (f : Registry → Except RegistryError Registry) : Admission Unit := fun g =>
  match f g with
  | .ok g' => .ok () g'
  | .error e => .error e g

/-- Looks at the registry and may refuse. -/
def check (f : Registry → Except RegistryError Unit) : Admission Unit := fun g =>
  match f g with
  | .ok () => .ok () g
  | .error e => .error e g

/-- The records of the fields of a declaration, under their documentation. -/
def fields (decl : Declaration) : List FieldSpec → Admission (List Field)
  | [] => pure []
  | f :: fs => do
    let type ← Registry.resolve f.type
    let rest ← fields decl fs
    pure (⟨f.name, decl.docs.field? f.name, type⟩ :: rest)

/-- Refuses a declaration with a type that is not well formed: name, result, then fields. -/
def checkTokens (decl : Declaration) : Except RegistryError Unit := do
  Registry.checkToken decl.name
  Registry.checkToken decl.result
  decl.fields.forM (Registry.checkToken ·.type)

/-- Refuses a name that is a concrete type and so cannot be a union. -/
def checkUnion (name : String) (g : Registry) : Except RegistryError Unit :=
  match g.lookup? name with
  | some id => if (g.get id).isConcrete then .error (.concreteAsUnion (g.get id).name) else .ok ()
  | none => .ok ()

/-- Refuses the name of a type that is declared already or is a union. -/
def checkName (name : String) (g : Registry) : Except RegistryError Unit :=
  match g.lookup? name with
  | some id =>
    if (g.get id).isDeclared then .error (.declaredTwice (g.get id).name)
    else if (g.get id).isUnion then .error (.unionWithFields (g.get id).name)
    else .ok ()
  | none => .ok ()

/-- Refuses a type declaration that could not be carried out. A type may be its own result, and is
then no union. -/
def checkType (decl : Declaration) (g : Registry) : Except RegistryError Unit := do
  checkTokens decl
  checkName decl.name g
  if g.lookup? decl.result = g.lookup? decl.name then .ok () else checkUnion decl.result g

/-- Whether a result is one of the unions of the scalars. -/
def isScalarUnion (result : String) : Bool :=
  scalarUnions.contains result || (Scalar.ofToken? result).isSome

/-- Takes in a type declaration and gives its record. The constructors of a scalar are passed
over. -/
def addType (decl : Declaration) : Admission (Option TypeId) :=
  if isScalarUnion decl.result then pure none
  else do
    check (checkType decl)
    let id ← Registry.declare decl.name decl.docs.description?
    let fields ← fields decl decl.fields
    let base ← Registry.resolve decl.result
    change (·.define id fields)
    if base = id then pure () else change (·.markUnion base)
    change fun g => .ok (g.setBase id base)
    pure (some id)

/-- Refuses the name of a function that is there already. -/
def checkFunction (name : String) (g : Registry) : Except RegistryError Unit :=
  if (g.function? name).isSome then .error (.functionTwice name) else .ok ()

/-- Makes the result of a function a union, unless it is declared or generic. -/
def markResult (id : TypeId) (g : Registry) : Except RegistryError Registry :=
  if !(g.get id).isDeclared && (g.get id).argument.isNone then g.markUnion id else .ok g

/-- Takes in a function declaration. -/
def addFunction (decl : Declaration) : Admission Unit := do
  check fun _ => checkTokens decl
  check (checkFunction decl.name)
  let arguments ← fields decl decl.fields
  let result ← Registry.resolve decl.result
  change (markResult result)
  change (·.addFunction ⟨decl.name, decl.docs.description?, arguments, result⟩)

/-- Takes in the documentation of a union and gives its record. -/
def documentUnion (name : String) (description : Option String) : Admission TypeId := do
  check fun _ => Registry.checkToken name
  check (checkUnion name)
  let id ← Registry.resolve name
  change (·.markUnion id)
  change fun g => .ok (g.describe id description)
  pure id

/-- Whether a schema declares types or functions. -/
inductive Kind where
  | types
  | functions
deriving DecidableEq, Repr

/-- What became of an item that was not refused. -/
inductive Outcome where
  | declared
  /-- A constructor of a scalar, under its name. -/
  | passedOver (name : String)
  /-- The documentation of a union, which declares nothing. -/
  | documented
deriving DecidableEq, Repr

/-- Takes in an item. -/
def addItem (kind : Kind) : Item → Admission Outcome
  | .declaration decl =>
    match kind with
    | .types => do
      match ← addType decl with
      | some _ => pure .declared
      | none => pure (.passedOver decl.name)
    | .functions => do
      addFunction decl
      pure .declared
  | .union name description _ => do
    let _ ← documentUnion name description
    pure .documented

end Admission

end TypeLang
