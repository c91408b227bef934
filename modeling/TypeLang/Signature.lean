import TypeLang.Token

/-! # Signatures

A signature is what a declaration line says: `name field:type ... = Result;`. -/

namespace TypeLang

/-- One field of a signature, with the column of its name. -/
structure FieldSpec where
  name : String
  type : String
  column : Nat
deriving DecidableEq, Repr

/-- A declaration line, `name field:type ... = result;`. -/
structure Signature where
  name : String
  fields : List FieldSpec
  result : String
deriving DecidableEq, Repr

namespace Signature

/-- Whether a word is a plain name, without brackets. -/
def isIdentifier (word : String) : Bool := word.toList.all fun c => c.isAlphanum || c == '_'

/-- Whether every `>` closes a `<` and, counting `depth` brackets already open, all are closed. The count
may take any value: texts with 2^31 brackets open, where a count in 32 bits ends, are left out. -/
def closes (depth : Nat) : List Char → Bool
  | [] => depth == 0
  | c :: cs =>
    if c = '<' then closes (depth + 1) cs
    else if c = '>' then
      match depth with
      | 0 => false
      | depth + 1 => closes depth cs
    else closes depth cs

/-- Whether the brackets of a type pair up and, if it has any, one of them ends it. -/
def isBalanced (type : String) : Bool :=
  closes 0 type.toList && (!type.toList.contains '<' || type.toList.getLast? == some '>')

/-- The fault that `what` is due where the tokens go on, or at the end of the line. -/
def missing (what : Expectation) (endColumn : Nat) : List Token → Fault
  | [] => ⟨endColumn, .expected what none⟩
  | t :: _ => ⟨t.column, .expected what (some t.lexeme.text)⟩

/-- What follows the equals sign: the result type, a semicolon and the end of the line. -/
def parseResult (endColumn : Nat) : List Token → Except Fault String
  | ⟨.word result, column⟩ :: rest =>
    if isBalanced result then
      match rest with
      | [⟨.semicolon, _⟩] => .ok result
      | ⟨.semicolon, _⟩ :: rest => .error (missing .lineEnd endColumn rest)
      | rest => .error (missing .semicolon endColumn rest)
    else .error ⟨column, .unbalanced result⟩
  | ts => .error (missing .resultType endColumn ts)

/-- What follows the name: the fields, the equals sign and the result. -/
def parseFields (endColumn : Nat) : List Token → Except Fault (List FieldSpec × String)
  | ⟨.equals, _⟩ :: rest => (parseResult endColumn rest).map ([], ·)
  | ⟨.word name, column⟩ :: rest =>
    if isIdentifier name then
      match rest with
      | ⟨.colon, _⟩ :: ⟨.word type, typeColumn⟩ :: rest =>
        if isBalanced type then
          (parseFields endColumn rest).map fun (fields, result) =>
            (⟨name, type, column⟩ :: fields, result)
        else .error ⟨typeColumn, .unbalanced type⟩
      | ⟨.colon, _⟩ :: rest => .error (missing .fieldType endColumn rest)
      | rest => .error (missing .colon endColumn rest)
    else .error ⟨column, .expected .fieldNameOrEquals (some name)⟩
  | ts => .error (missing .fieldNameOrEquals endColumn ts)

/-- The signature that a row of tokens spells. -/
def ofRow (row : TokenRow) : Except Fault Signature :=
  match row.tokens with
  | ⟨.word name, column⟩ :: rest =>
    if isIdentifier name then
      (parseFields row.endColumn rest).map fun (fields, result) => ⟨name, fields, result⟩
    else .error ⟨column, .expected .declarationName (some name)⟩
  | ts => .error (missing .declarationName row.endColumn ts)

/-- Reads a declaration line. -/
def parse (text : String) : Except Fault Signature := (TokenRow.ofLine text).bind ofRow

end Signature

end TypeLang
