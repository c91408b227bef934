import TypeLang.Text.Basic
import TypeLang.Text.Case

/-! # Documentation tags

A comment documents the declaration below it by tags: `//@description A message @id Its number`. A
line that starts with two slashes and a dash goes on with the tag read last. -/

namespace TypeLang

open Text

/-- The tags of a block, newest first: lower-case keys with their texts. A later tag hides an
earlier one of the same key. -/
structure DocTags where
  tags : List (String × String) := []
deriving DecidableEq, Repr

namespace DocTags

/-- Whether `c` may stand in the name of a tag. -/
def isTagChar (c : Char) : Bool := c.isAlpha || c == '_'

/-- The tag in what stands between one `@` and the next: a name, a space, and a text that is not
blank. -/
def tag? (segment : List Char) : Option (String × String) :=
  let key := segment.takeWhile isTagChar
  match segment.dropWhile isTagChar with
  | ' ' :: rest =>
    let value := trim rest
    if key.isEmpty || value.isEmpty then none
    else some (lower (String.ofList key), String.ofList value)
  | _ => none

/-- The tags of a line, from left to right. -/
def tagsIn (line : List Char) : List (String × String) :=
  ((line.splitOnP (· == '@')).drop 1).filterMap tag?

/-- Adds a tag. -/
def push (docs : DocTags) (tag : String × String) : DocTags := ⟨tag :: docs.tags⟩

/-- Adds the words of a line to the text of the newest tag. Blank words, and words before the first
tag, are dropped. -/
def carryOn (docs : DocTags) (words : List Char) : DocTags :=
  match docs.tags with
  | [] => docs
  | (key, value) :: older =>
    if (trim words).isEmpty then docs
    else ⟨(key, value ++ " " ++ String.ofList (trim words)) :: older⟩

/-- What follows the slashes and the dash of a line that carries on. -/
def carried? (line : List Char) : Option (List Char) :=
  match trimStart line with
  | '/' :: '/' :: '-' :: words => some words
  | _ => none

/-- Reads one more line. -/
def addLine (docs : DocTags) (line : String) : DocTags :=
  match carried? line.toList with
  | some words => docs.carryOn words
  | none => (tagsIn line.toList).foldl push docs

/-- The tags of a row of lines. -/
def ofLines (lines : List String) : DocTags := lines.foldl addLine {}

/-- The text of a tag. The case of the key does not matter. -/
def get? (docs : DocTags) (key : String) : Option String := docs.tags.lookup (lower key)

/-- The text of the tag `description`. -/
def description? (docs : DocTags) : Option String := docs.get? "description"

/-- The text for a field: that of the tag `param_` with its name, or else that of its name. -/
def field? (docs : DocTags) (name : String) : Option String :=
  (docs.get? ("param_" ++ lower name)).or (docs.get? (lower name))

/-- Whether there is no tag. -/
def isEmpty (docs : DocTags) : Bool := docs.tags.isEmpty

end DocTags

end TypeLang
