import TypeLang.Registry.Basic
import TypeLang.Text.Escape

/-! # The registry as JSON -/

namespace TypeLang

open Text

/-- A JSON value whose numbers are natural. The members of an object keep their order. -/
inductive Json where
  | null
  | bool (b : Bool)
  | number (n : Nat)
  | string (s : String)
  | array (items : List Json)
  | object (members : List (String × Json))

namespace Json

/-- A new line at a depth, with two spaces for each level. -/
def newLine (depth : Nat) : String := String.ofList ('\n' :: List.replicate (2 * depth) ' ')

mutual
/-- The text of a value at a depth: every item and member stands on a line of its own, and what is
empty takes no line. -/
def pretty (depth : Nat) : Json → String
  | null => "null"
  | bool true => "true"
  | bool false => "false"
  | number n => toString n
  | string s => quoted s
  | array [] => "[]"
  | array (i :: is) =>
    "[" ++ newLine (depth + 1) ++ pretty (depth + 1) i ++ prettyItems (depth + 1) is ++
      newLine depth ++ "]"
  | object [] => "\x7b\x7d"
  | object ((key, value) :: ms) =>
    "\x7b" ++ newLine (depth + 1) ++ quoted key ++ ": " ++ pretty (depth + 1) value ++
      prettyMembers (depth + 1) ms ++ newLine depth ++ "\x7d"
/-- The items of an array after the first. -/
def prettyItems (depth : Nat) : List Json → String
  | [] => ""
  | i :: is => "," ++ newLine depth ++ pretty depth i ++ prettyItems depth is
/-- The members of an object after the first. -/
def prettyMembers (depth : Nat) : List (String × Json) → String
  | [] => ""
  | (key, value) :: ms =>
    "," ++ newLine depth ++ quoted key ++ ": " ++ pretty depth value ++ prettyMembers depth ms
end

/-- A value that may be missing. -/
def ofOption {α : Type} (f : α → Json) (x : Option α) : Json := x.elim null f

end Json

/-- The name of a scalar in JSON. -/
def Scalar.label : Scalar → String
  | bool => "Bool"
  | byte => "Byte"
  | int32 => "Int32"
  | int53 => "Int53"
  | int64 => "Int64"
  | double => "Double"
  | string => "String"

/-- A field as JSON. -/
def Field.toJson (f : Field) : Json :=
  .object [("name", .string f.name), ("description", .ofOption .string f.description),
    ("type", .number f.type)]

/-- A record as JSON. -/
def TypeRecord.toJson (r : TypeRecord) : Json :=
  .object [("name", .string r.name), ("description", .ofOption .string r.description),
    ("fields", .array (r.fields.map Field.toJson)), ("generic", .ofOption .number r.argument),
    ("base", .ofOption .number r.base), ("is_abstract_base", .bool r.isUnion),
    ("builtin", .ofOption (fun s => .string s.label) r.scalar), ("declared", .bool r.isDeclared)]

/-- A function as JSON. -/
def FunctionRecord.toJson (f : FunctionRecord) : Json :=
  .object [("name", .string f.name), ("description", .ofOption .string f.description),
    ("args", .array (f.arguments.map Field.toJson)), ("result", .number f.result)]

/-- A registry as JSON. -/
def Registry.toJson (g : Registry) : Json :=
  .object [("types", .array (g.records.toList.map TypeRecord.toJson)),
    ("functions", .array (g.functions.toList.map FunctionRecord.toJson))]

end TypeLang
