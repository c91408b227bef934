import TypeLang.Text.CaseTable

/-! # Upper and lower case

Case mapping of whole texts. A letter may become several, and a capital sigma becomes `ς` at the end
of a word and `σ` elsewhere. -/

namespace TypeLang.Text

/-- The image of code point `n`: an expansion if it has one, the first run that moves it, or `n`. -/
def mapCase (expansions : List (Nat × List Nat)) (runs : List CaseRun) (n : Nat) : List Nat :=
  match expansions.lookup n with
  | some ns => ns
  | none => [(runs.findSome? (·.shifted? n)).getD n]

/-- The upper case of one character. -/
def upperChar (c : Char) : List Char :=
  if c.toNat < 0x80 then [c.toUpper]
  else (mapCase upperExpansions upperRuns c.toNat).map Char.ofNat

/-- The lower case of one character, away from other letters. -/
def lowerChar (c : Char) : List Char :=
  if c.toNat < 0x80 then [c.toLower]
  else (mapCase lowerExpansions lowerRuns c.toNat).map Char.ofNat

/-- Whether `c` has a case. -/
def isCased (c : Char) : Bool :=
  if c.toNat < 0x80 then c.isAlpha else casedRanges.has c

/-- Whether `c` is passed over when the case of a neighbour matters. -/
def isCaseIgnorable (c : Char) : Bool :=
  if c.toNat < 0x80 then c == '\x27' || c == '.' || c == ':' || c == '^' || c == '\x60'
  else caseIgnorableRanges.has c

/-- Whether the first character that is not passed over has a case. -/
def meetsCased (cs : List Char) : Bool :=
  (cs.dropWhile isCaseIgnorable).head?.any isCased

/-- The lower case of `cs`, which stands after `before` (given backwards). -/
def lowerAfter (before : List Char) : List Char → List Char
  | [] => []
  | c :: cs =>
    let image :=
      if c = 'Σ' then (if meetsCased before && !meetsCased cs then ['ς'] else ['σ'])
      else lowerChar c
    image ++ lowerAfter (c :: before) cs

/-- The lower case of a text. -/
def lower (s : String) : String := String.ofList (lowerAfter [] s.toList)

end TypeLang.Text
