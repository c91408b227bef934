import TypeLang.Text.Case

/-! # Names in generated code

Schema names are written in snake or camel case, generated names in Pascal case. -/

namespace TypeLang.Naming

open Text

/-- Puts the first character into upper case and keeps the rest. -/
def capitalizeChars : List Char → List Char
  | [] => []
  | c :: cs => upperChar c ++ cs

/-- The string with its first character in upper case. -/
def capitalize (s : String) : String := String.ofList (capitalizeChars s.toList)

/-- Drops the underscores and capitalizes what follows each; `start` says whether the text itself
starts a word. -/
def pascalFrom (start : Bool) : List Char → List Char
  | [] => []
  | c :: cs =>
    if c = '_' then pascalFrom true cs
    else (if start then upperChar c else [c]) ++ pascalFrom false cs

/-- The Pascal case of a schema name: `is_outgoing` becomes `IsOutgoing`. -/
def pascal (s : String) : String := String.ofList (pascalFrom true s.toList)

/-- Whether two names differ at most in case. -/
def sameLetters (s t : String) : Bool := lower s == lower t

/-- The member name of a field. A member may not share the name of its class, in any case, and then
takes an underscore at its end. -/
def member (field className : String) : String :=
  if sameLetters (pascal field) className then pascal field ++ "_" else pascal field

end TypeLang.Naming
