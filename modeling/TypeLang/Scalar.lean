/-! # Scalars

The types every schema may use without declaring them. A scalar has two spellings: the schema's own
and the one that the registry and the generated code use. -/

namespace TypeLang

/-- A type that is known without a declaration. -/
inductive Scalar where
  | bool | byte | int32 | int53 | int64 | double | string
deriving DecidableEq, Repr

namespace Scalar

/-- Every scalar, in the order in which a registry starts. -/
def all : List Scalar := [bool, byte, int32, int53, int64, double, string]

/-- The spelling in a schema. -/
def schemaName : Scalar → String
  | bool => "Bool"
  | byte => "byte"
  | int32 => "int32"
  | int53 => "int53"
  | int64 => "int64"
  | double => "double"
  | string => "string"

/-- The spelling in the registry and in generated code. -/
def codeName : Scalar → String
  | bool => "bool"
  | byte => "byte"
  | int32 => "int"
  | int53 => "long"
  | int64 => "Int64"
  | double => "double?"
  | string => "string"

/-- The scalar that `token` spells, in either way. -/
def ofToken? (token : String) : Option Scalar :=
  all.find? fun s => s.schemaName == token || s.codeName == token

/-- Whether the scalar travels as text, so that no digit is lost on the way. -/
def isTextEncoded : Scalar → Bool
  | int64 => true
  | _ => false

theorem mem_all (s : Scalar) : s ∈ all := by
  cases s <;> decide

end Scalar

/-- The schema's word for a string of bytes, which stands for `vector<byte>`. -/
def bytesToken : String := "bytes"

/-- What `bytes` stands for. -/
def bytesExpansion : String := "vector<byte>"

/-- The unions that the declarations of the scalars themselves belong to. -/
def scalarUnions : List String :=
  ["Bool", "Double", "String", "Int32", "Int53", "Int64", "Bytes", "Vector"]

end TypeLang
