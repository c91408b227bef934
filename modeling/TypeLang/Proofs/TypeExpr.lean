import TypeLang.TypeToken

/-! # Type expressions

What a token stands for: a name, or a name applied to one argument. `TypeExpr.parse` reads a token at
once, with scalars under their code names and `bytes` written out, and `TypeExpr.text` writes it back.
Nothing in a registry reads tokens this way; `parse_eq_level` ties it to the levels that all readers go
through. -/

namespace TypeLang

open Text

/-- A type as a schema refers to it. -/
inductive TypeExpr where
  | name (text : String)
  | generic (outer : String) (argument : TypeExpr)
deriving DecidableEq, Repr

namespace TypeExpr

/-- The written form. -/
def text : TypeExpr → String
  | name s => s
  | generic outer a => outer ++ "<" ++ a.text ++ ">"

/-- The token whose brackets do not fit. -/
structure Malformed where
  token : String
deriving DecidableEq, Repr

/-- The expression that a token without brackets stands for. -/
def ofBare (token : String) : TypeExpr :=
  if token = bytesToken then generic "vector" (name Scalar.byte.codeName)
  else name (normalizeBare token)

/-- Reads the characters of a type expression. Blanks around an expression, at any level, do not
count. The error names the first level, from the outside, that is not well formed. -/
def parseChars (cs : List Char) : Except Malformed TypeExpr :=
  let token := trim cs
  match _h : cutBrackets token with
  | some b =>
    if b.before ≠ [] ∧ b.inner ≠ [] ∧ b.after = [] then
      (parseChars b.inner).map (generic (String.ofList b.before))
    else .error ⟨String.ofList token⟩
  | none =>
    if hasBracket token then .error ⟨String.ofList token⟩
    else .ok (ofBare (String.ofList token))
termination_by cs.length
decreasing_by exact Nat.lt_of_lt_of_le (inner_sublist _h).2 (trim_sublist cs).length_le

/-- Reads a type expression from a string. -/
def parse (token : String) : Except Malformed TypeExpr := parseChars token.toList

/-- Reading a token, one level at a time. -/
theorem parse_eq_level (token : String) : parse token =
    match TokenLevel.ofToken token with
    | .bare t => .ok (ofBare t)
    | .generic outer inner => (parse inner).map (generic outer)
    | .malformed t => .error ⟨t⟩ := by
  rw [parse, parseChars, TokenLevel.ofToken]
  split
  next b hb =>
    simp only [hb]
    split
    · simp [parse]
    · rfl
  next hb =>
    simp only [hb]
    show (if hasBracket _ = true then _ else _) = _
    split <;> rfl

end TypeExpr

end TypeLang
