import TypeLang.Scalar

/-! # Units of generated code

A unit is one generated file: a class for a type or a function, inside the class of its union if it
has one. -/

namespace TypeLang

/-- The names on which generated code depends. -/
structure CodeOptions where
  rootNamespace : String := "Tl"
  /-- The static class that holds every generated class. -/
  container : String := "Api"
  /-- The class that top-level classes extend. -/
  rootClass : String := "Object"
  /-- The generic class that functions extend, applied to their result. -/
  functionClass : String := "Function"
  /-- The converter of members; its part `Int64` is for integers that travel as text. -/
  converter : String := "Converter"
  objectsDir : String := "Objects"
  functionsDir : String := "Functions"
  extension : String := "cs"
deriving DecidableEq, Repr

/-- A type as generated code spells it. -/
inductive CodeType where
  | scalar (s : Scalar)
  /-- A generated class, under the class it is nested in. -/
  | named (base : Option String) (name : String)
  | sequence (element : CodeType)
deriving DecidableEq, Repr

/-- How the value of a member travels. -/
inductive Encoding where
  | plain
  /-- An integer of 64 bits as text. -/
  | textInt64
deriving DecidableEq, Repr

namespace CodeType

/-- The spelling. -/
def text : CodeType → String
  | scalar s => s.codeName
  | named (some base) name => base ++ "." ++ name
  | named none name => name
  | sequence element => element.text ++ "[]"

/-- The type under all sequences. -/
def leaf : CodeType → CodeType
  | sequence element => element.leaf
  | t => t

/-- The number of sequences around the leaf. -/
def depth : CodeType → Nat
  | sequence element => element.depth + 1
  | _ => 0

/-- The encoding that a type asks for: its leaf decides. -/
def encoding (t : CodeType) : Encoding :=
  match t.leaf with
  | scalar s => if s.isTextEncoded then .textInt64 else .plain
  | _ => .plain

end CodeType

/-- What a class extends. -/
inductive Parent where
  | root
  | union (name : String)
  /-- The class of functions, applied to the result. -/
  | function (result : CodeType)
deriving DecidableEq, Repr

/-- A member of a class. -/
structure Member where
  name : String
  /-- The name under which the value travels. -/
  wireName : String
  description : Option String
  type : CodeType
  encoding : Encoding
deriving DecidableEq, Repr

/-- A generated class. -/
structure ClassDef where
  name : String
  description : Option String
  parent : Parent
  /-- The name under which values of the class travel; the class of a union has none. -/
  wireName : Option String
  members : List Member
  nested : List ClassDef
deriving Repr

namespace ClassDef

/-- The names on the way down through the first nested classes. -/
def spine : ClassDef → List String
  | ⟨name, _, _, _, _, []⟩ => [name]
  | ⟨name, _, _, _, _, c :: _⟩ => name :: c.spine

/-- The class at the end of the way down, for which the unit is there. -/
def innermost : ClassDef → ClassDef
  | ⟨_, _, _, _, _, c :: _⟩ => c.innermost
  | c => c

end ClassDef

/-- Whether a unit is for a type or for a function. -/
inductive UnitKind where
  | object
  | function
deriving DecidableEq, Repr

/-- One generated file. -/
structure SourceUnit where
  kind : UnitKind
  fileStem : String
  top : ClassDef
deriving Repr

/-- The dotted name of the class for which the unit is there. -/
def SourceUnit.qualifiedName (u : SourceUnit) : String := ".".intercalate u.top.spine

end TypeLang
