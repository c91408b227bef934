import TypeLang.Fault
import TypeLang.Text.Basic

/-! # Tokens of a declaration line

A line is a row of words and of the marks `=`, `:` and `;`, with blanks between them. `scan` cuts it
into tokens, each with the column where it starts. -/

namespace TypeLang

open Text

/-- What a token says. -/
inductive Lexeme where
  | equals
  | colon
  | semicolon
  | word (text : String)
deriving DecidableEq, Repr

/-- The characters of the token. -/
def Lexeme.text : Lexeme → String
  | equals => "="
  | colon => ":"
  | semicolon => ";"
  | word text => text

/-- A token and the column where it starts. -/
structure Token where
  lexeme : Lexeme
  column : Nat
deriving DecidableEq, Repr

namespace Token

/-- The mark that a character is. -/
def mark? (c : Char) : Option Lexeme :=
  if c = '=' then some .equals
  else if c = ':' then some .colon
  else if c = ';' then some .semicolon
  else none

/-- Whether a word may start with `c`. -/
def isWordStart (c : Char) : Bool := c.isAlpha || c == '_'

/-- Whether a word may go on with `c`. -/
def isWordPart (c : Char) : Bool := c.isAlphanum || c == '_' || c == '<' || c == '>'

/-- Whether a token, or a run of blanks, starts with `c`. -/
def isStart (c : Char) : Bool := isBlank c || (mark? c).isSome || isWordStart c

/-- The number of bytes that the characters take. -/
def width (cs : List Char) : Nat := cs.foldr (fun c n => c.utf8Size + n) 0

/-- The tokens of a text that starts in the given column. Characters that start no token are a
fault, which shows all of them up to the next possible start. -/
def scan (column : Nat) : List Char → Except Fault (List Token)
  | [] => .ok []
  | c :: cs =>
    if isBlank c then scan (column + c.utf8Size) cs
    else match mark? c with
      | some mark => (scan (column + c.utf8Size) cs).map (⟨mark, column⟩ :: ·)
      | none =>
        if isWordStart c then
          let word := c :: cs.takeWhile isWordPart
          (scan (column + width word) (cs.dropWhile isWordPart)).map
            (⟨.word (String.ofList word), column⟩ :: ·)
        else
          .error ⟨column, .unreadable (String.ofList (c :: cs.takeWhile fun d => !isStart d))⟩
termination_by cs => cs.length
decreasing_by
  · simp
  · simp
  · have := (List.dropWhile_suffix isWordPart (l := cs)).length_le
    simp only [List.length_cons]
    omega

end Token

/-- The tokens of a line, and the column just after its last character. -/
structure TokenRow where
  tokens : List Token
  endColumn : Nat
deriving DecidableEq, Repr

/-- The row of tokens of a line. -/
def TokenRow.ofLine (text : String) : Except Fault TokenRow :=
  (Token.scan 1 text.toList).map (⟨·, Token.width text.toList + 1⟩)

end TypeLang
