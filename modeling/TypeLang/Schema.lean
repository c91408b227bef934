import TypeLang.Item
import TypeLang.Notice

/-! # Schemas

A schema is the text of one file. Its blocks are read one by one; in a strict reading the first
block that is malformed ends it, otherwise such blocks are left out. -/

namespace TypeLang

namespace Reading

/-- The item. -/
def item? : Reading → Option Item
  | item i => some i
  | _ => none

/-- The error. -/
def error? (file : String) : Reading → Option CompileError
  | malformed line fault => some (.line file line fault)
  | _ => none

/-- What there is to tell. -/
def notice? (file : String) : Reading → Option Notice
  | item _ => none
  | comment line => some (.commentBlock file line)
  | scalar line text => some (.scalarLine file line text)
  | malformed line fault => some (.malformedBlock (.line file line fault))

/-- Whether the block is malformed. -/
def isMalformed : Reading → Bool
  | malformed .. => true
  | _ => false

end Reading

namespace Schema

/-- The readings of the blocks of a text. -/
def readings (text : String) : List Reading := (Block.split text).map Block.read

/-- The items of a schema, or in a strict reading the first error. -/
def items (strict : Bool) (file text : String) : Except CompileError (List Item) :=
  match if strict then (readings text).findSome? (Reading.error? file) else none with
  | some e => .error e
  | none => .ok ((readings text).filterMap Reading.item?)

/-- The notices of a reading. A strict one tells nothing of its end nor of what comes after. -/
def notices (strict : Bool) (file text : String) : List Notice :=
  let told := if strict then (readings text).takeWhile (!·.isMalformed) else readings text
  told.filterMap (Reading.notice? file)

end Schema

end TypeLang
