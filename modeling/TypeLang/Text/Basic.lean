/-! # Characters, blanks and lines

Classes of characters are ranges of code points. `isBlank` is the class of white space, and `trim` and
its halves cut blanks off the ends of a text. A line ends at a line feed, and one carriage return in
front of the line feed goes with it. What follows the last line feed is a line if it is not empty, and
keeps a carriage return at its end. -/

namespace TypeLang.Text

/-- A set of code points: closed intervals in increasing order. -/
abbrev Ranges := List (Nat × Nat)

/-- Whether one of the intervals holds the code point of `c`. -/
def Ranges.has (rs : Ranges) (c : Char) : Bool :=
  rs.any fun r => r.1 ≤ c.toNat && c.toNat ≤ r.2

theorem Ranges.has_iff {rs : Ranges} {c : Char} :
    rs.has c = true ↔ ∃ r ∈ rs, r.1 ≤ c.toNat ∧ c.toNat ≤ r.2 := by
  simp [has]

/-! ### Blanks -/

/-- White space: tab to carriage return, the space, the next-line control, the no-break space and
the separators of the other scripts. -/
def blankRanges : Ranges := [
  (0x09, 0x0D), (0x20, 0x20), (0x85, 0x85), (0xA0, 0xA0), (0x1680, 0x1680), (0x2000, 0x200A),
  (0x2028, 0x2029), (0x202F, 0x202F), (0x205F, 0x205F), (0x3000, 0x3000)]

/-- Whether `c` is white space. -/
def isBlank (c : Char) : Bool := blankRanges.has c

/-- Drops the blanks in front. -/
def trimStart (cs : List Char) : List Char := cs.dropWhile isBlank

/-- Drops the blanks at the end. -/
def trimEnd (cs : List Char) : List Char := (cs.reverse.dropWhile isBlank).reverse

/-- Drops the blanks at both ends. -/
def trim (cs : List Char) : List Char := trimEnd (trimStart cs)

/-- The string without the blanks at its ends. -/
def trimmed (s : String) : String := String.ofList (trim s.toList)

theorem trim_sublist (cs : List Char) : (trim cs).Sublist cs := by
  have hend := (List.dropWhile_sublist isBlank (l := (trimStart cs).reverse)).reverse
  rw [List.reverse_reverse] at hend
  exact hend.trans (List.dropWhile_sublist isBlank)

/-! ### Lines -/

/-- Drops the carriage return that stands before a line feed; the line is given backwards. -/
def dropReturn : List Char → List Char
  | '\r' :: line => line
  | line => line

/-- The lines of `line.reverse ++ cs`, where `line` holds the characters since the last line feed,
newest first. -/
def linesFrom (line : List Char) : List Char → List (List Char)
  | [] => if line.isEmpty then [] else [line.reverse]
  | c :: cs =>
    if c = '\n' then (dropReturn line).reverse :: linesFrom [] cs else linesFrom (c :: line) cs

/-- The lines of a text, without their ends. -/
def lines (text : String) : List String := (linesFrom [] text.toList).map String.ofList

end TypeLang.Text
