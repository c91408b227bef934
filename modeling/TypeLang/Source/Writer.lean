import TypeLang.PathText
import TypeLang.Source.Unit
import TypeLang.Text.Escape

/-! # The text of a unit

A unit is written line by line into a buffer that counts the braces open in it. A header opens a brace,
the lines after it are one deeper, and a brace that is closed takes one from the count, which stops at
zero. That braces pair up is left to those who write: a class opens one, writes its members and the
classes in it, each with an empty line in front but the first, and closes it. -/

namespace TypeLang

open Text

namespace Source

/-- The name of what a class extends. -/
def parentName (o : CodeOptions) : Parent → String
  | .root => o.rootClass
  | .union name => name
  | .function result => o.functionClass ++ "<" ++ result.text ++ ">"

/-- The converter of an encoding. -/
def converter (o : CodeOptions) : Encoding → String
  | .plain => o.converter
  | .textInt64 => o.converter ++ ".Int64"

/-- The line that opens a class. -/
def classHeader (o : CodeOptions) (top : Bool) (name : String) (parent : Parent) : String :=
  "public " ++ (if top then "partial class" else "class") ++ " " ++ name ++ " : " ++
    parentName o parent

end Source

open Source

/-- A buffer for lines, with the number of braces open in it. -/
@[ext]
structure CodeWriter where
  out : String := ""
  indent : Nat := 0
deriving DecidableEq, Repr

namespace CodeWriter

/-- Writes a line, with four spaces for each open brace unless it is empty. -/
def line (w : CodeWriter) (text : String) : CodeWriter :=
  if text.isEmpty then { w with out := w.out.push '\n' }
  else { w with out := (Nat.repeat (· ++ "    ") w.indent w.out ++ text).push '\n' }

/-- Writes a header and opens a brace under it. -/
def openBrace (w : CodeWriter) (header : String) : CodeWriter :=
  let w := (w.line header).line "\x7b"
  { w with indent := w.indent + 1 }

/-- Closes a brace; with none open the count stays at zero. -/
def closeBrace (w : CodeWriter) : CodeWriter := { w with indent := w.indent - 1 }.line "\x7d"

/-- Writes the summary of what follows, if it has a description. -/
def summary (w : CodeWriter) : Option String → CodeWriter
  | none => w
  | some text => w.line "/// <summary>" |>.line ("/// " ++ markup text) |>.line "/// </summary>"

/-- Writes the two members that every class with a name of its own has. -/
def wireMembers (w : CodeWriter) (wireName : String) : CodeWriter :=
  w.summary (some "Data type for serialization")
    |>.line "[JsonProperty(\"@type\")]"
    |>.line ("public override string DataType \x7b get; set; \x7d = \"" ++ wireName ++ "\";")
    |>.line ""
    |>.summary (some "Extra data attached to the message")
    |>.line "[JsonProperty(\"@extra\")]"
    |>.line "public override string Extra \x7b get; set; \x7d"

/-- Writes one member. -/
def member (w : CodeWriter) (o : CodeOptions) (m : Member) : CodeWriter :=
  w.summary m.description
    |>.line ("[JsonConverter(typeof(" ++ converter o m.encoding ++ "))]")
    |>.line ("[JsonProperty(\"" ++ m.wireName ++ "\")]")
    |>.line ("public " ++ m.type.text ++ " " ++ m.name ++ " \x7b get; set; \x7d")

/-- Writes an empty line, unless what comes next is the first in its class. -/
def separate (w : CodeWriter) (first : Bool) : CodeWriter := if first then w else w.line ""

/-- Writes members one after the other, and says whether the next thing is the first in its class. -/
def members (w : CodeWriter) (o : CodeOptions) (first : Bool) : List Member → CodeWriter × Bool
  | [] => (w, first)
  | m :: ms => ((w.separate first).member o m).members o false ms

mutual
/-- Writes a class: its summary, its header, and in braces its members and the classes in it. -/
def classDef (w : CodeWriter) (o : CodeOptions) (top : Bool) : ClassDef → CodeWriter
  | ⟨name, description, parent, wireName, members, nested⟩ =>
    let w := (w.summary description).openBrace (classHeader o top name parent)
    let (w, first) := wireName.elim (w, true) fun n => ((w.separate true).wireMembers n, false)
    let (w, first) := w.members o first members
    (w.nestedDefs o first nested).closeBrace
/-- Writes the classes in a class. -/
def nestedDefs (w : CodeWriter) (o : CodeOptions) (first : Bool) : List ClassDef → CodeWriter
  | [] => w
  | c :: cs => ((w.separate first).classDef o false c).nestedDefs o false cs
end

end CodeWriter

namespace SourceUnit

/-- The text of a unit. -/
def render (o : CodeOptions) (u : SourceUnit) : String :=
  let w : CodeWriter := {}
  let w := w.line "// <auto-generated>"
    |>.line "// Generated by tlgen. Changes to this file will be lost."
    |>.line "// </auto-generated>"
    |>.line "using System;"
    |>.line "using Newtonsoft.Json;"
    |>.line ""
    |>.openBrace ("namespace " ++ o.rootNamespace)
    |>.openBrace ("public static partial class " ++ o.container)
  (w.classDef o true u.top).closeBrace.closeBrace.out

/-- The path of a unit below the output directory. -/
def path (o : CodeOptions) (u : SourceUnit) : String :=
  let dir := match u.kind with
    | .object => o.objectsDir
    | .function => o.functionsDir
  PathText.join dir (u.fileStem ++ "." ++ o.extension)

end SourceUnit

end TypeLang
