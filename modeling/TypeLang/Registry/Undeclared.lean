import TypeLang.Registry.Basic
import TypeLang.Text.Escape

/-! # Types that are used and never declared -/

namespace TypeLang

open Text

/-- A field or argument whose type was never declared. -/
structure Undeclared where
  type : String
  field : String
  owner : String
deriving DecidableEq, Repr

/-- The message. -/
def Undeclared.message (u : Undeclared) : String :=
  "The type " ++ quoted u.type ++ " is not declared for field " ++ quoted u.field ++ " of " ++
    quoted u.owner

namespace Registry

/-- The complaint about one field of an owner: under its arguments, its type is neither declared nor
a union. -/
def undeclaredField? (g : Registry) (owner : String) (f : Field) : Option Undeclared :=
  let r := g.get (g.leaf f.type).1
  if r.isDeclared || r.isUnion then none else some ⟨r.name, f.name, owner⟩

/-- Every complaint: the fields of the types, then the arguments of the functions. -/
def undeclared (g : Registry) : List Undeclared :=
  (g.records.toList.flatMap fun r => r.fields.filterMap (g.undeclaredField? r.name)) ++
    g.functions.toList.flatMap fun f => f.arguments.filterMap (g.undeclaredField? f.name)

end Registry

end TypeLang
