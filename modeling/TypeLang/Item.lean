import TypeLang.Block
import TypeLang.DocTags
import TypeLang.Scalar
import TypeLang.Signature

/-! # Items of a schema

A block holds one item: a declaration under its comments, or the documentation of a union in
comments alone. Other blocks of comments say nothing, and so do the declarations of the scalars. -/

namespace TypeLang

open Text

/-- A declaration with its line number and documentation. -/
structure Declaration extends Signature where
  line : Nat
  docs : DocTags
deriving DecidableEq, Repr

/-- What a block contributes to a schema. -/
inductive Item where
  | declaration (decl : Declaration)
  /-- Documentation of a union: `//@class Name @description ...`. -/
  | union (name : String) (description : Option String) (line : Nat)
deriving DecidableEq, Repr

/-- The line to which messages about the item point. -/
def Item.line : Item → Nat
  | declaration decl => decl.line
  | union _ _ line => line

/-- What reading a block gives. -/
inductive Reading where
  | item (item : Item)
  /-- Comments that document no union. -/
  | comment (line : Nat)
  /-- The declaration of a scalar. -/
  | scalar (line : Nat) (text : String)
  | malformed (line : Nat) (fault : Fault)
deriving DecidableEq, Repr

/-- Whether a line is a comment. -/
def isComment (line : String) : Bool :=
  match trimStart line.toList with
  | '/' :: '/' :: _ => true
  | '-' :: '-' :: '-' :: _ => true
  | _ => false

/-- The first word of a line. -/
def firstWord (line : String) : String :=
  String.ofList ((trimStart line.toList).takeWhile fun c => !isBlank c)

/-- Whether a line declares a scalar or the vector. -/
def declaresScalar (line : String) : Bool :=
  firstWord line == bytesToken || firstWord line == "vector" ||
    (Scalar.ofToken? (firstWord line)).isSome

namespace Block

/-- The documentation of a block. -/
def docs (b : Block) : DocTags := DocTags.ofLines (b.lines.map (·.text))

/-- The number of the first line. -/
def firstLine (b : Block) : Nat := b.lines.head?.elim 0 (·.number)

/-- The first line that is not a comment. -/
def declarationLine? (b : Block) : Option NumberedLine := b.lines.find? (!isComment ·.text)

/-- Reads a block. Its first line that is not a comment is the declaration. -/
def read (b : Block) : Reading :=
  match b.declarationLine? with
  | none =>
    match b.docs.get? "class" with
    | some name => .item (.union name b.docs.description? b.firstLine)
    | none => .comment b.firstLine
  | some l =>
    if declaresScalar l.text then .scalar l.number (trimmed l.text)
    else match Signature.parse l.text with
      | .ok signature => .item (.declaration ⟨signature, l.number, b.docs⟩)
      | .error fault => .malformed l.number fault

end Block

end TypeLang
