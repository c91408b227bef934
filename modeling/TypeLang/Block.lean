import TypeLang.Text.Basic
import TypeLang.Text.WordChar

/-! # Blocks of a schema

A schema is a row of blocks, and blank lines divide them. Every line of a block keeps its number,
and field types spelled `bytes` are written out. -/

namespace TypeLang

open Text

/-- A line and its number, counted from one. -/
structure NumberedLine where
  number : Nat
  text : String
deriving DecidableEq, Repr

/-- A run of lines that are not blank. -/
structure Block where
  lines : List NumberedLine
deriving DecidableEq, Repr

/-- Whether a line has nothing but blanks. -/
def isBlankLine (line : String) : Bool := line.toList.all isBlank

/-- Whether a word that reaches up to `cs` ends there. -/
def endsWord (cs : List Char) : Bool := !cs.head?.any isWordChar

/-- Writes `:vector<byte>` for every `:bytes` that ends a word. -/
def expandBytes : List Char → List Char
  | [] => []
  | ':' :: 'b' :: 'y' :: 't' :: 'e' :: 's' :: cs =>
    (if endsWord cs then ":vector<byte>".toList else ":bytes".toList) ++ expandBytes cs
  | c :: cs => c :: expandBytes cs

/-- Writes out `bytes` in the field types of a line. -/
def expandLine (line : String) : String := String.ofList (expandBytes line.toList)

namespace Block

/-- The block of the lines read so far (given backwards), if there are any. -/
def flush : List NumberedLine → List Block
  | [] => []
  | pending => [⟨pending.reverse⟩]

/-- Groups the lines that follow those of `pending`, which are given backwards. -/
def group (pending : List NumberedLine) : List NumberedLine → List Block
  | [] => flush pending
  | l :: ls =>
    if isBlankLine l.text then flush pending ++ group [] ls else group (l :: pending) ls

/-- Pairs lines with their numbers. -/
def number (start : Nat) : List String → List NumberedLine
  | [] => []
  | l :: ls => ⟨start, l⟩ :: number (start + 1) ls

/-- The block with `bytes` written out in every line. -/
def expand (b : Block) : Block := ⟨b.lines.map fun l => ⟨l.number, expandLine l.text⟩⟩

/-- The blocks of a text. -/
def split (text : String) : List Block := (group [] (number 1 (Text.lines text))).map expand

end Block

end TypeLang
