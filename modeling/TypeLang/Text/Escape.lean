import TypeLang.Text.Hidden

/-! # Text written out

A character that may not stand in a text as it is gets a written form: by its code point, by a short
escape, or by an entity. What has to be written out depends on the reader. Between quotes it is the quote,
the backslash and the controls; in a message all that is hidden; on a terminal the controls that move the
cursor or change the screen, but neither tabs nor line ends; in markup the three characters that it reads
as its own. -/

namespace TypeLang.Text

/-! ### Code points -/

/-- The lower-case hexadecimal digits of `n`, without leading zeros. -/
def hexDigits (n : Nat) : List Char := Nat.toDigits 16 n

/-- The last two lower-case hexadecimal digits of `n`. -/
def hexPair (n : Nat) : List Char := [Nat.digitChar (n / 16 % 16), Nat.digitChar (n % 16)]

/-- A code point in braces. -/
def bracedCode (c : Char) : List Char := '\\' :: 'u' :: '\x7b' :: hexDigits c.toNat ++ ['\x7d']

/-! ### Quotes -/

/-- One character between the quotes. -/
def quotedChar (c : Char) : List Char :=
  if c = '"' then ['\\', '"']
  else if c = '\\' then ['\\', '\\']
  else if c = '\x08' then ['\\', 'b']
  else if c = '\t' then ['\\', 't']
  else if c = '\n' then ['\\', 'n']
  else if c = '\x0c' then ['\\', 'f']
  else if c = '\r' then ['\\', 'r']
  else if c.toNat < 0x20 then '\\' :: 'u' :: '0' :: '0' :: hexPair c.toNat
  else [c]

/-- The text between double quotes. -/
def quoted (s : String) : String :=
  String.ofList ('"' :: s.toList.flatMap quotedChar ++ ['"'])

/-! ### Messages -/

/-- One character between the quotes: a short escape if it has one, its code point in braces if it
is hidden, itself otherwise. -/
def visibleChar (c : Char) : List Char :=
  if c = '\x00' then ['\\', '0']
  else if c = '\t' then ['\\', 't']
  else if c = '\r' then ['\\', 'r']
  else if c = '\n' then ['\\', 'n']
  else if c = '\\' then ['\\', '\\']
  else if c = '"' then ['\\', '"']
  else if isHidden c then bracedCode c
  else [c]

/-- The text between double quotes, with nothing in it hidden. -/
def visible (s : String) : String :=
  String.ofList ('"' :: s.toList.flatMap visibleChar ++ ['"'])

/-! ### Terminals -/

/-- Whether `c` is an ASCII control that a terminal obeys: bell, backspace, form feed, escape or
delete. -/
def isTerminalControl (c : Char) : Bool := [0x07, 0x08, 0x0C, 0x1B, 0x7F].contains c.toNat

/-- One character on a terminal: two digits for an ASCII control, the code point in braces for one of
the controls above ASCII, itself otherwise. -/
def terminalChar (c : Char) : List Char :=
  if isTerminalControl c then '\\' :: 'x' :: hexPair c.toNat
  else if 0x80 ≤ c.toNat ∧ c.toNat ≤ 0x9F then bracedCode c
  else [c]

/-- The text as it is shown on a terminal. -/
def terminalText (s : String) : String := String.ofList (s.toList.flatMap terminalChar)

/-! ### Markup

The characters are replaced one kind at a time. An entity starts with an ampersand, so the ampersands of
the text come first, and this is what one walk over the characters gives (`toList_markup`). -/

/-- The text with `entity` for every `c`. -/
def substitute (c : Char) (entity : String) (cs : List Char) : List Char :=
  cs.flatMap fun d => if d = c then entity.toList else [d]

/-- The text as the contents of a markup element. -/
def markup (s : String) : String :=
  String.ofList (substitute '>' "&gt;" (substitute '<' "&lt;" (substitute '&' "&amp;" s.toList)))

/-- One character of a markup text. -/
def markupChar (c : Char) : List Char :=
  if c = '&' then ['&', 'a', 'm', 'p', ';']
  else if c = '<' then ['&', 'l', 't', ';']
  else if c = '>' then ['&', 'g', 't', ';']
  else [c]

/-- No substitution finds anything in the entities written before it. -/
theorem toList_markup (s : String) : (markup s).toList = s.toList.flatMap markupChar := by
  rw [markup, String.toList_ofList, substitute, substitute, substitute, List.flatMap_assoc,
    List.flatMap_assoc]
  congr 1
  funext c
  by_cases hamp : c = '&'
  · subst hamp
    rfl
  by_cases hlt : c = '<'
  · subst hlt
    rfl
  · simp [markupChar, hamp, hlt]

end TypeLang.Text
