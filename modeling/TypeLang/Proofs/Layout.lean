import TypeLang.Source.Writer

/-! # The layout of a unit

The lines of a unit, told without a writer. Each line has a depth, what is between braces is one deeper,
and groups of lines have an empty line between neighbours. A writer that lays out such lines (`wrote`)
ends with as many open braces as it started with, and so does everything that is written for a unit:
`classDef_eq` for a class with all the classes in it, and `SourceUnit.render_eq` for the unit. The count
of open braces never runs down to where it would be held at zero, since each brace is closed by what
opened it (`closeBrace_wrote`). -/

namespace TypeLang

open Text

/-- A line of generated code and the number of braces around it. -/
structure CodeLine where
  depth : Nat
  text : String
deriving DecidableEq, Repr

namespace CodeLine

/-- A line at depth zero. -/
def ofText (text : String) : CodeLine := ⟨0, text⟩

/-- The line `n` braces deeper. -/
def deeper (n : Nat) (l : CodeLine) : CodeLine := ⟨l.depth + n, l.text⟩

/-- Moves lines one brace deeper. -/
def indent (ls : List CodeLine) : List CodeLine := ls.map (deeper 1)

/-- A header with a body in braces. -/
def braced (header : String) (body : List CodeLine) : List CodeLine :=
  ofText header :: ofText "\x7b" :: indent body ++ [ofText "\x7d"]

/-- Groups of lines with an empty line between neighbours. -/
def separated (groups : List (List CodeLine)) : List CodeLine :=
  [ofText ""].intercalate groups

/-- The characters of a line with its end: four spaces for each brace around it, and none on an
empty line. -/
def render (l : CodeLine) : List Char :=
  if l.text.isEmpty then ['\n']
  else List.replicate (4 * l.depth) ' ' ++ l.text.toList ++ ['\n']

@[simp]
theorem text_deeper (n : Nat) (l : CodeLine) : (l.deeper n).text = l.text := rfl

theorem deeper_indent (n : Nat) (ls : List CodeLine) :
    (indent ls).map (deeper n) = ls.map (deeper (n + 1)) := by
  rw [indent, List.map_map]
  refine List.map_congr_left fun l _ => ?_
  show CodeLine.mk (l.depth + 1 + n) l.text = ⟨l.depth + (n + 1), l.text⟩
  rw [Nat.add_right_comm, Nat.add_assoc]

theorem separated_append_singleton (groups : List (List CodeLine)) (g : List CodeLine) :
    separated (groups ++ [g]) =
      separated groups ++ ((if groups.isEmpty then [] else [ofText ""]) ++ g) := by
  induction groups with
  | nil => simp [separated, List.intercalate]
  | cons g' groups ih => cases groups <;> simp_all [separated, List.intercalate]

end CodeLine

namespace Source

open CodeLine

/-- The summary of what follows, if it has a description. -/
def summary : Option String → List CodeLine
  | none => []
  | some text =>
    [ofText "/// <summary>", ofText ("/// " ++ markup text), ofText "/// </summary>"]

/-- The two members that every class with a name of its own has. -/
def wireMembers (wireName : String) : List CodeLine :=
  separated [
    summary (some "Data type for serialization") ++ [
      ofText "[JsonProperty(\"@type\")]",
      ofText ("public override string DataType \x7b get; set; \x7d = \"" ++ wireName ++ "\";")],
    summary (some "Extra data attached to the message") ++ [
      ofText "[JsonProperty(\"@extra\")]",
      ofText "public override string Extra \x7b get; set; \x7d"]]

/-- One member. -/
def memberLines (o : CodeOptions) (m : Member) : List CodeLine :=
  summary m.description ++ [
    ofText ("[JsonConverter(typeof(" ++ converter o m.encoding ++ "))]"),
    ofText ("[JsonProperty(\"" ++ m.wireName ++ "\")]"),
    ofText ("public " ++ m.type.text ++ " " ++ m.name ++ " \x7b get; set; \x7d")]

mutual
/-- A class: its summary, its header, and in braces its members and nested classes. -/
def classLines (o : CodeOptions) (top : Bool) : ClassDef → List CodeLine
  | ⟨name, description, parent, wireName, members, nested⟩ =>
    summary description ++ braced (classHeader o top name parent)
      (separated (wireName.toList.map wireMembers ++ members.map (memberLines o) ++
        nestedLines o nested))
/-- The nested classes, each as a group of its own. -/
def nestedLines (o : CodeOptions) : List ClassDef → List (List CodeLine)
  | [] => []
  | c :: cs => classLines o false c :: nestedLines o cs
end

end Source

/-- The lines of a unit. -/
def SourceUnit.codeLines (o : CodeOptions) (u : SourceUnit) : List CodeLine :=
  ["// <auto-generated>",
    "// Generated by tlgen. Changes to this file will be lost.",
    "// </auto-generated>",
    "using System;",
    "using Newtonsoft.Json;",
    ""].map CodeLine.ofText ++
  CodeLine.braced ("namespace " ++ o.rootNamespace)
    (CodeLine.braced ("public static partial class " ++ o.container) (Source.classLines o true u.top))

/-! ### What is written -/

namespace CodeWriter
open CodeLine
variable (w : CodeWriter) (o : CodeOptions)

/-- The writer with lines laid out inside the braces that are open. -/
def wrote (ls : List CodeLine) : CodeWriter :=
  { w with out := w.out ++ String.ofList ((ls.map (deeper w.indent)).flatMap render) }

@[simp]
theorem wrote_nil : w.wrote [] = w := by simp [wrote]

@[simp]
theorem wrote_wrote (as bs : List CodeLine) : (w.wrote as).wrote bs = w.wrote (as ++ bs) := by
  simp [wrote, String.append_assoc]

theorem repeat_append (n : Nat) (s : String) :
    (Nat.repeat (· ++ "    ") n s).toList = s.toList ++ List.replicate (4 * n) ' ' := by
  induction n with
  | zero => simp [Nat.repeat]
  | succ n ih =>
    rw [Nat.repeat, String.toList_append, ih, List.append_assoc, Nat.mul_succ,
      List.replicate_append_replicate.symm]
    rfl

theorem line_eq (text : String) : w.line text = w.wrote [ofText text] := by
  apply CodeWriter.ext
  · rw [← String.toList_inj]
    cases hempty : text.isEmpty <;> simp [line, wrote, ofText, deeper, render, hempty, repeat_append]
  · unfold line
    split <;> rfl

theorem closeBrace_wrote (header : String) (body : List CodeLine) :
    ((w.openBrace header).wrote body).closeBrace = w.wrote (braced header body) := by
  simp only [openBrace, closeBrace, line_eq]
  -- the body leaves the count one above that of `w`, so taking one away is not cut off at zero
  simp [wrote, braced, deeper_indent, String.append_assoc]

theorem summary_eq (d : Option String) : w.summary d = w.wrote (Source.summary d) := by
  cases d with
  | none => exact w.wrote_nil.symm
  | some text => simp [summary, Source.summary, line_eq]

theorem wireMembers_eq (wireName : String) :
    w.wireMembers wireName = w.wrote (Source.wireMembers wireName) := by
  simp [wireMembers, Source.wireMembers, summary_eq, line_eq, separated, List.intercalate]

theorem member_eq (m : Member) : w.member o m = w.wrote (Source.memberLines o m) := by
  simp [member, Source.memberLines, summary_eq, line_eq]

/-- A group under those that are there. What is next is the first in its class if there are none. -/
theorem wrote_separate (gs : List (List CodeLine)) (g : List CodeLine) :
    ((w.wrote (separated gs)).separate gs.isEmpty).wrote g = w.wrote (separated (gs ++ [g])) := by
  rw [separated_append_singleton, ← wrote_wrote, separate]
  cases gs.isEmpty <;> simp [line_eq]

/-- The members of a class are the first group in it, if the class has a name of its own. -/
theorem wire_eq (wireName : Option String) :
    (wireName.elim (w, true) fun n => ((w.separate true).wireMembers n, false)) =
      (w.wrote (separated (wireName.toList.map Source.wireMembers)),
        (wireName.toList.map Source.wireMembers).isEmpty) := by
  cases wireName with
  | none => simp [separated]
  | some n => simp [separated, separate, wireMembers_eq, List.intercalate]

theorem members_eq (gs : List (List CodeLine)) (ms : List Member) :
    (w.wrote (separated gs)).members o gs.isEmpty ms =
      (w.wrote (separated (gs ++ ms.map (Source.memberLines o))),
        (gs ++ ms.map (Source.memberLines o)).isEmpty) := by
  induction ms generalizing gs with
  | nil => simp [members]
  | cons m ms ih =>
    have hrest := ih (gs ++ [Source.memberLines o m])
    rw [show (gs ++ [Source.memberLines o m]).isEmpty = false by simp] at hrest
    rw [members, member_eq, wrote_separate, hrest]
    simp

mutual
theorem classDef_eq (w : CodeWriter) (top : Bool) :
    (c : ClassDef) → w.classDef o top c = w.wrote (Source.classLines o top c)
  | ⟨name, description, parent, wireName, members, nested⟩ => by
    rw [Source.classLines, classDef, summary_eq]
    simp only [wire_eq, members_eq, nestedDefs_eq, closeBrace_wrote, wrote_wrote]
theorem nestedDefs_eq (w : CodeWriter) (gs : List (List CodeLine)) : (cs : List ClassDef) →
    (w.wrote (separated gs)).nestedDefs o gs.isEmpty cs =
      w.wrote (separated (gs ++ Source.nestedLines o cs))
  | [] => by simp [nestedDefs, Source.nestedLines]
  | c :: cs => by
    have hrest := nestedDefs_eq w (gs ++ [Source.classLines o false c]) cs
    rw [show (gs ++ [Source.classLines o false c]).isEmpty = false by simp] at hrest
    rw [nestedDefs, classDef_eq, wrote_separate, hrest]
    simp [Source.nestedLines]
end

end CodeWriter

/-- The text of a unit is its lines, one after the other. -/
theorem SourceUnit.render_eq (o : CodeOptions) (u : SourceUnit) :
    u.render o = String.ofList ((u.codeLines o).flatMap CodeLine.render) := by
  have hempty : ({} : CodeWriter).wrote (u.codeLines o) =
      ⟨String.ofList ((u.codeLines o).flatMap CodeLine.render), 0⟩ := by
    have hzero : (u.codeLines o).map (CodeLine.deeper 0) = u.codeLines o := List.map_id'' (fun _ => rfl) _
    simp [CodeWriter.wrote, hzero]
  rw [render]
  simp only [CodeWriter.classDef_eq, CodeWriter.closeBrace_wrote, CodeWriter.line_eq, CodeWriter.wrote_wrote]
  exact congrArg CodeWriter.out hempty

end TypeLang
