import TypeLang.Text.Escape

/-! # Faults in a declaration line -/

namespace TypeLang

open Text

/-- What a declaration line needs next. -/
inductive Expectation where
  | declarationName
  | fieldNameOrEquals
  | colon
  | fieldType
  | resultType
  | semicolon
  | lineEnd
deriving DecidableEq, Repr

/-- The wording in messages. -/
def Expectation.text : Expectation → String
  | declarationName => "declaration name"
  | fieldNameOrEquals => "field name or \"=\""
  | colon => "\":\""
  | fieldType => "field type"
  | resultType => "result type"
  | semicolon => "\";\""
  | lineEnd => "end of line"

/-- Why a line is no declaration. -/
inductive Issue where
  /-- Characters that no token starts with. -/
  | unreadable (text : String)
  /-- Another token, or the end of the line, in place of the one that is due. -/
  | expected (what : Expectation) (found : Option String)
  /-- A type whose angle brackets do not pair up. -/
  | unbalanced (type : String)
deriving DecidableEq, Repr

/-- The message, without the place. -/
def Issue.message : Issue → String
  | unreadable text => "Syntax error: " ++ quoted text
  | expected what found =>
    "Expected " ++ what.text ++ " but found " ++ found.elim "end of line" quoted
  | unbalanced type => "Unbalanced angle brackets in " ++ quoted type

/-- An issue and the column where it starts. Columns count bytes, from one. -/
structure Fault where
  column : Nat
  issue : Issue
deriving DecidableEq, Repr

end TypeLang
