import Mathlib.Data.List.Forall2
import TypeLang.Proofs.Layout
import TypeLang.Text.Basic

/-! # Braces and indentation

The text of a unit is well bracketed: braces stand on lines of their own, they pair up, and every line
that is not empty is indented by the braces that are open (`IsFramed`). The header of each pair of braces
is the line in front of it, and the headers are those of the classes in pre-order.

The writer puts braces around lines and moves these one deeper, and puts groups of lines next to each
other. `Framed` is what these two keep: walking over the lines with the number of open braces in hand
(`CodeLine.step`), each line is as deep as it should be and the walk ends where it started. It says which
headers there are, and what the lines look like, so that no text can be taken for a brace
(`CodeLine.Sound`). Only at the end are the lines read back from the text. -/

namespace TypeLang

open Text

/-! ### Lines of a text -/

/-- The line is a brace that opens, with blanks around it. -/
def opensBrace (line : List Char) : Bool := trim line == ['\x7b']

/-- The line is a brace that closes, with blanks around it. -/
def closesBrace (line : List Char) : Bool := trim line == ['\x7d']

/-- The lines that stand right in front of an opening brace, without their indentation. -/
def headersOf : List (List Char) → List String
  | [] => []
  | [_] => []
  | header :: line :: lines =>
    if opensBrace line then
      String.ofList (header.dropWhile (· == ' ')) :: headersOf (line :: lines)
    else headersOf (line :: lines)

/-- The braces pair up, and every line that is not empty has four spaces for each that is open, and
then another character. A brace that closes counts as closed on its own line. -/
structure IsFramed (lines : List (List Char)) : Prop where
  nonneg : ∀ early, early <+: lines → early.countP closesBrace ≤ early.countP opensBrace
  balanced : lines.countP closesBrace = lines.countP opensBrace
  indented : ∀ early line late, lines = early ++ line :: late → line ≠ [] →
    ∃ c rest, c ≠ ' ' ∧ line = List.replicate
      (4 * (early.countP opensBrace - (early ++ [line]).countP closesBrace)) ' ' ++ c :: rest

/-! ### Strings without line ends -/

/-- The string has no line end in it. -/
def IsLine (s : String) : Prop := '\n' ∉ s.toList

instance (s : String) : Decidable (IsLine s) := inferInstanceAs (Decidable (¬ _))

/-- The names that are written into a unit have no line end. -/
structure CodeOptions.OneLine (o : CodeOptions) : Prop where
  rootNamespace : IsLine o.rootNamespace
  container : IsLine o.container
  rootClass : IsLine o.rootClass
  functionClass : IsLine o.functionClass
  converter : IsLine o.converter

def CodeType.OneLine : CodeType → Prop
  | scalar _ => True
  | named base name => (∀ b ∈ base, IsLine b) ∧ IsLine name
  | sequence element => element.OneLine

def Parent.OneLine : Parent → Prop
  | root => True
  | union name => IsLine name
  | function result => result.OneLine

structure Member.OneLine (m : Member) : Prop where
  name : IsLine m.name
  wireName : IsLine m.wireName
  description : ∀ d ∈ m.description, IsLine d
  type : m.type.OneLine

/-- The strings of a class have no line end, those of the classes in it left aside. -/
structure ClassDef.OneLine (c : ClassDef) : Prop where
  name : IsLine c.name
  description : ∀ d ∈ c.description, IsLine d
  parent : c.parent.OneLine
  wireName : ∀ n ∈ c.wireName, IsLine n
  members : ∀ m ∈ c.members, m.OneLine

mutual
/-- A class, and then the classes in it, each followed by those in it. -/
def ClassDef.preorder : ClassDef → List ClassDef
  | ⟨name, description, parent, wireName, members, nested⟩ =>
    ⟨name, description, parent, wireName, members, nested⟩ :: ClassDef.preorderAll nested
/-- The classes of a list in pre-order. -/
def ClassDef.preorderAll : List ClassDef → List ClassDef
  | [] => []
  | c :: cs => c.preorder ++ ClassDef.preorderAll cs
end

section IsLine
variable {s t : String}

theorem isLine_append (hs : IsLine s) (ht : IsLine t) : IsLine (s ++ t) := by
  rw [IsLine, String.toList_append, List.mem_append, not_or]
  exact ⟨hs, ht⟩

theorem isLine_markup (h : IsLine s) : IsLine (markup s) := by
  rw [IsLine, toList_markup, List.mem_flatMap]
  rintro ⟨c, hc, hmem⟩
  unfold markupChar at hmem
  split_ifs at hmem
  · revert hmem; decide
  · revert hmem; decide
  · revert hmem; decide
  · rw [List.mem_singleton] at hmem
    exact h (hmem ▸ hc)

theorem CodeType.OneLine.text {t : CodeType} (h : t.OneLine) : IsLine t.text := by
  induction t with
  | scalar s => cases s <;> decide
  | named base name =>
    cases base with
    | none => exact h.2
    | some b => exact isLine_append (isLine_append (h.1 b rfl) (by decide)) h.2
  | sequence element ih => exact isLine_append (ih h) (by decide)

theorem Parent.OneLine.parentName {o : CodeOptions} {p : Parent} (ho : o.OneLine) (h : p.OneLine) :
    IsLine (Source.parentName o p) := by
  cases p with
  | root => exact ho.rootClass
  | union name => exact h
  | function result =>
    refine isLine_append (isLine_append (isLine_append ho.functionClass ?_) ?_) ?_
    · decide
    · exact CodeType.OneLine.text h
    · decide

end IsLine

/-! ### Lines of code -/

/-- The text starts with a character that is neither a blank nor a brace. -/
def isPlain (text : String) : Bool :=
  text.toList.head?.any fun c => !isBlank c && c != '\x7b' && c != '\x7d'

theorem isPlain_append {s : String} (h : isPlain s = true) (t : String) : isPlain (s ++ t) = true := by
  rw [isPlain, String.toList_append]
  cases hs : s.toList with
  | nil =>
    rw [isPlain, hs] at h
    cases h
  | cons c cs =>
    rw [isPlain, hs] at h
    exact h

namespace CodeLine

/-- The line is empty, a brace, or some other text that cannot be taken for one. -/
structure Sound (l : CodeLine) : Prop where
  isLine : IsLine l.text
  shape : l.text = "" ∨ l.text = "\x7b" ∨ l.text = "\x7d" ∨ isPlain l.text = true

/-- The number of braces open after a line, if there are `n` in front of it and the line is as deep as
it should be. -/
def step (n : Nat) (l : CodeLine) : Option Nat :=
  if l.text = "" then some n
  else if l.text = "\x7b" then (if l.depth = n then some (n + 1) else none)
  else if l.text = "\x7d" then (if l.depth + 1 = n then some l.depth else none)
  else if l.depth = n then some n else none

/-- The texts that stand right in front of an opening brace. -/
def headerTexts : List CodeLine → List String
  | [] => []
  | [_] => []
  | header :: l :: ls =>
    if l.text = "\x7b" then header.text :: headerTexts (l :: ls) else headerTexts (l :: ls)

theorem headerTexts_append {as bs : List CodeLine} (h : ∀ l ∈ bs.head?, l.text ≠ "\x7b") :
    headerTexts (as ++ bs) = headerTexts as ++ headerTexts bs := by
  fun_induction headerTexts as with
  | case1 => rfl
  | case2 a =>
    cases bs with
    | nil => rfl
    | cons b bs => rw [List.singleton_append, headerTexts, if_neg (h b rfl), List.nil_append]
  | case3 a l ls hl ih =>
    rw [List.cons_append, List.cons_append, headerTexts, if_pos hl, ← List.cons_append, ih,
      List.cons_append]
  | case4 a l ls hl ih =>
    rw [List.cons_append, List.cons_append, headerTexts, if_neg hl, ← List.cons_append, ih]

theorem headerTexts_deeper (n : Nat) (ls : List CodeLine) :
    headerTexts (ls.map (deeper n)) = headerTexts ls := by
  fun_induction headerTexts ls with
  | case1 => rfl
  | case2 => rfl
  | case3 a l ls hl ih =>
    rw [List.map_cons, List.map_cons, headerTexts, text_deeper, if_pos hl, ← List.map_cons, ih,
      text_deeper]
  | case4 a l ls hl ih =>
    rw [List.map_cons, List.map_cons, headerTexts, text_deeper, if_neg hl, ← List.map_cons, ih]

end CodeLine

open CodeLine

/-- The lines have their braces paired and are as deep as these say, and the headers are the given ones. -/
structure Framed (ls : List CodeLine) (headers : List String) : Prop where
  sound : ∀ l ∈ ls, l.Sound
  head : ∀ l ∈ ls.head?, l.text ≠ "\x7b"
  walk : ∀ n, (ls.map (deeper n)).foldlM step n = some n
  headers : headerTexts ls = headers

namespace Framed
variable {as bs ls : List CodeLine} {hs ks : List String} {text : String}

theorem nil : Framed [] [] := ⟨by simp, by simp, fun _ => rfl, rfl⟩

theorem append (ha : Framed as hs) (hb : Framed bs ks) : Framed (as ++ bs) (hs ++ ks) where
  sound := List.forall_mem_append.mpr ⟨ha.sound, hb.sound⟩
  head := by
    cases as with
    | nil => exact hb.head
    | cons a as => exact ha.head
  walk n := by
    rw [List.map_append, List.foldlM_append, ha.walk n]
    exact hb.walk n
  headers := by rw [headerTexts_append hb.head, ha.headers, hb.headers]

theorem empty : Framed [ofText ""] [] := by
  refine ⟨?_, ?_, fun n => rfl, rfl⟩
  · simp only [List.mem_singleton, forall_eq]
    exact ⟨by decide, .inl rfl⟩
  · simp only [List.head?_cons, Option.mem_some_iff, forall_eq']
    decide

theorem plain (hline : IsLine text) (hplain : isPlain text = true) : Framed [ofText text] [] := by
  have hne : ∀ s, isPlain s = false → text ≠ s := by
    rintro s hs rfl
    rw [hs] at hplain
    cases hplain
  refine ⟨?_, ?_, fun n => ?_, rfl⟩
  · simp only [List.mem_singleton, forall_eq]
    exact ⟨hline, .inr (.inr (.inr hplain))⟩
  · simp only [List.head?_cons, Option.mem_some_iff, forall_eq']
    exact hne _ (by decide)
  · simp only [List.map_cons, List.map_nil, List.foldlM_cons, List.foldlM_nil, deeper, ofText, step,
      hne "" (by decide), hne "\x7b" (by decide), hne "\x7d" (by decide), if_false, Nat.zero_add, if_true]
    rfl

/-- Lines one below the other. -/
theorem cons (hline : IsLine text) (hplain : isPlain text = true) (h : Framed ls hs) :
    Framed (ofText text :: ls) hs :=
  append (plain hline hplain) h

theorem braced (hline : IsLine text) (hplain : isPlain text = true) (h : Framed ls hs) :
    Framed (CodeLine.braced text ls) (text :: hs) := by
  have hheader := plain hline hplain
  have hcut : CodeLine.braced text ls =
      [ofText text] ++ ([ofText "\x7b"] ++ (indent ls ++ [ofText "\x7d"])) := rfl
  have hbody : ∀ l ∈ (indent ls ++ [ofText "\x7d"]).head?, l.text ≠ "\x7b" := by
    have hhead := h.head
    cases ls with
    | nil => simp [indent, ofText]
    | cons l ls => simpa [indent] using hhead
  refine ⟨?_, hheader.head, fun n => ?_, ?_⟩
  · rw [hcut, List.forall_mem_append, List.forall_mem_append, List.forall_mem_append]
    refine ⟨hheader.sound, ?_, ?_, ?_⟩
    · rintro l hl
      rw [List.mem_singleton.mp hl]
      exact ⟨by decide, .inr (.inl rfl)⟩
    · rintro l hl
      obtain ⟨l, hmem, rfl⟩ := List.mem_map.mp hl
      exact ⟨(h.sound l hmem).isLine, (h.sound l hmem).shape⟩
    · rintro l hl
      rw [List.mem_singleton.mp hl]
      exact ⟨by decide, .inr (.inr (.inl rfl))⟩
  · -- the opening brace adds one, which the closing brace takes back
    have hopen : step n (deeper n (ofText "\x7b")) = some (n + 1) := by simp [step, deeper, ofText]
    have hclose : step (n + 1) (deeper n (ofText "\x7d")) = some n := by simp [step, deeper, ofText]
    rw [hcut, List.map_append, List.foldlM_append, hheader.walk n, List.map_append, List.map_append,
      deeper_indent]
    simp [hopen, hclose, h.walk (n + 1)]
  · have hindent : indent ls = ls.map (deeper 1) := rfl
    have hopen : ([ofText "\x7b"] ++ (indent ls ++ [ofText "\x7d"])) =
      ofText "\x7b" :: (indent ls ++ [ofText "\x7d"]) := rfl
    rw [hcut, hopen, List.singleton_append, headerTexts, if_pos (by rfl), ← hopen,
      headerTexts_append hbody, headerTexts_append (by simp [ofText]), hindent, headerTexts_deeper,
      h.headers]
    simp [headerTexts, ofText]

theorem separated {groups : List (List CodeLine)} {hss : List (List String)}
    (h : List.Forall₂ Framed groups hss) : Framed (CodeLine.separated groups) hss.flatten := by
  induction h with
  | nil => exact nil
  | @cons g hs groups hss hg hgs ih =>
    cases hgs with
    | nil => simpa [CodeLine.separated, List.intercalate] using hg
    | @cons g' hs' groups hss hg' hgs =>
      have hcut : CodeLine.separated (g :: g' :: groups) =
          g ++ ([ofText ""] ++ CodeLine.separated (g' :: groups)) := by
        simp [CodeLine.separated, List.intercalate]
      rw [hcut]
      exact hg.append (empty.append ih)

end Framed

/-! ### Classes and units -/

namespace Source
open CodeLine
variable {o : CodeOptions}

theorem framed_summary {d : Option String} (h : ∀ text ∈ d, IsLine text) : Framed (summary d) [] := by
  cases d with
  | none => exact .nil
  | some text =>
    refine .cons (by decide) (by decide) (.cons ?_ ?_ (.cons (by decide) (by decide) .nil))
    · exact isLine_append (by decide) (isLine_markup (h text rfl))
    · exact isPlain_append (by decide) _

theorem framed_wireMembers {n : String} (h : IsLine n) : Framed (wireMembers n) [] := by
  refine @Framed.separated _ [[], []] (.cons ?_ (.cons ?_ .nil))
  · refine (framed_summary ?_).append (.cons (by decide) (by decide) (.cons ?_ ?_ .nil))
    · rintro text ⟨⟩
      decide
    · exact isLine_append (isLine_append (by decide) h) (by decide)
    · exact isPlain_append (isPlain_append (by decide) _) _
  · refine (framed_summary ?_).append (.cons (by decide) (by decide) (.cons (by decide) (by decide) .nil))
    rintro text ⟨⟩
    decide

theorem isLine_converter (ho : o.OneLine) (e : Encoding) : IsLine (converter o e) := by
  cases e with
  | plain => exact ho.converter
  | textInt64 => exact isLine_append ho.converter (by decide)

theorem framed_memberLines (ho : o.OneLine) {m : Member} (h : m.OneLine) :
    Framed (memberLines o m) [] := by
  refine (framed_summary h.description).append (.cons ?_ ?_ (.cons ?_ ?_ (.cons ?_ ?_ .nil)))
  · exact isLine_append (isLine_append (by decide) (isLine_converter ho _)) (by decide)
  · exact isPlain_append (isPlain_append (by decide) _) _
  · exact isLine_append (isLine_append (by decide) h.wireName) (by decide)
  · exact isPlain_append (isPlain_append (by decide) _) _
  · exact isLine_append (isLine_append (isLine_append (isLine_append (by decide) h.type.text)
      (by decide)) h.name) (by decide)
  · exact isPlain_append (isPlain_append (isPlain_append (isPlain_append (by decide) _) _) _) _

theorem isLine_classHeader (ho : o.OneLine) (top : Bool) {name : String} {p : Parent} (hn : IsLine name)
    (hp : p.OneLine) : IsLine (classHeader o top name p) := by
  have hword : IsLine (if top then "partial class" else "class") := by cases top <;> decide
  exact isLine_append (isLine_append (isLine_append (isLine_append (isLine_append (by decide) hword)
    (by decide)) hn) (by decide)) (hp.parentName ho)

theorem isPlain_classHeader (o : CodeOptions) (top : Bool) (name : String) (p : Parent) :
    isPlain (classHeader o top name p) = true := by
  rw [classHeader]
  simp only [String.append_assoc]
  exact isPlain_append (by decide) _

/-- The header of a class that is not at the top. -/
def innerHeader (o : CodeOptions) (c : ClassDef) : String := classHeader o false c.name c.parent

theorem flatten_preorder (o : CodeOptions) (cs : List ClassDef) :
    (cs.map fun c => c.preorder.map (innerHeader o)).flatten =
      (ClassDef.preorderAll cs).map (innerHeader o) := by
  induction cs with
  | nil => rfl
  | cons c cs ih => rw [List.map_cons, List.flatten_cons, ih, ClassDef.preorderAll, List.map_append]

theorem forall₂_framed {α : Type} {f : α → List CodeLine} {as : List α} (h : ∀ a ∈ as, Framed (f a) []) :
    List.Forall₂ Framed (as.map f) (as.map fun _ => []) := by
  rw [List.forall₂_map_left_iff, List.forall₂_map_right_iff, List.forall₂_same]
  exact h

mutual
theorem framed_classLines (ho : o.OneLine) (top : Bool) : (c : ClassDef) →
    (∀ d ∈ c.preorder, d.OneLine) → Framed (classLines o top c)
      (classHeader o top c.name c.parent :: (ClassDef.preorderAll c.nested).map (innerHeader o))
  | ⟨name, description, parent, wireName, members, nested⟩, h => by
    rw [ClassDef.preorder, List.forall_mem_cons] at h
    obtain ⟨hc, hnested⟩ := h
    have hwire : List.Forall₂ Framed (wireName.toList.map wireMembers) (wireName.toList.map fun _ => []) :=
      forall₂_framed fun n hn => framed_wireMembers (hc.wireName n (Option.mem_toList.mp hn))
    have hmembers : List.Forall₂ Framed (members.map (memberLines o)) (members.map fun _ => []) :=
      forall₂_framed fun m hm => framed_memberLines ho (hc.members m hm)
    have hbody := Framed.separated
      (List.rel_append (List.rel_append hwire hmembers) (framed_nestedLines ho nested hnested))
    rw [List.flatten_append, List.flatten_append, flatten_preorder] at hbody
    have hline := isLine_classHeader ho top hc.name hc.parent
    have hclass := (framed_summary hc.description).append
      (hbody.braced hline (isPlain_classHeader o top name parent))
    simpa [classLines] using hclass
theorem framed_nestedLines (ho : o.OneLine) : (cs : List ClassDef) →
    (∀ d ∈ ClassDef.preorderAll cs, d.OneLine) →
      List.Forall₂ Framed (nestedLines o cs) (cs.map fun c => c.preorder.map (innerHeader o))
  | [], _ => .nil
  | c :: cs, h => by
    rw [ClassDef.preorderAll, List.forall_mem_append] at h
    refine .cons ?_ (framed_nestedLines ho cs h.2)
    have hc := framed_classLines ho false c h.1
    obtain ⟨name, description, parent, wireName, members, nested⟩ := c
    exact hc
end

end Source

theorem SourceUnit.framed_codeLines {o : CodeOptions} {u : SourceUnit} (ho : o.OneLine)
    (hu : ∀ c ∈ u.top.preorder, c.OneLine) :
    Framed (u.codeLines o) (("namespace " ++ o.rootNamespace) ::
      ("public static partial class " ++ o.container) ::
      Source.classHeader o true u.top.name u.top.parent ::
      (ClassDef.preorderAll u.top.nested).map (Source.innerHeader o)) := by
  have hclass := Source.framed_classLines ho true u.top hu
  have hcontainer := hclass.braced (isLine_append (by decide) ho.container)
    (isPlain_append (s := "public static partial class ") (by decide) _)
  have hnamespace := hcontainer.braced (isLine_append (by decide) ho.rootNamespace)
    (isPlain_append (s := "namespace ") (by decide) _)
  exact .cons (by decide) (by decide) (.cons (by decide) (by decide) (.cons (by decide) (by decide)
    (.cons (by decide) (by decide) (.cons (by decide) (by decide) (Framed.empty.append hnamespace)))))

/-! ### Reading the lines back -/

namespace CodeLine
variable {l : CodeLine} {ls : List CodeLine} {n m : Nat}

/-- The line as it is written, without its end. -/
def chars (l : CodeLine) : List Char :=
  if l.text = "" then [] else List.replicate (4 * l.depth) ' ' ++ l.text.toList

theorem render_eq (l : CodeLine) : l.render = l.chars ++ ['\n'] := by
  unfold render chars
  by_cases h : l.text = ""
  · simp [h]
  · simp [h]

theorem splitOn_render (h : ∀ l ∈ ls, l.Sound) :
    (ls.flatMap render).splitOn '\n' = ls.map chars ++ [[]] := by
  induction ls with
  | nil => rfl
  | cons l ls ih =>
    obtain ⟨hl, hls⟩ := List.forall_mem_cons.mp h
    have hchars : ∀ c ∈ l.chars, (c == '\n') = false := by
      intro c hc
      rw [beq_eq_false_iff_ne]
      rintro rfl
      unfold chars at hc
      split at hc
      · cases hc
      · rcases List.mem_append.mp hc with hblank | htext
        · exact absurd (List.eq_of_mem_replicate hblank) (by decide)
        · exact hl.isLine htext
    have hsplit := List.splitOnP_append_cons (p := (· == '\n')) l.chars (ls.flatMap render)
      (beq_self_eq_true '\n')
    rw [List.flatMap_cons, render_eq, List.append_assoc, List.singleton_append, List.splitOn, hsplit,
      List.splitOnP_eq_singleton hchars, List.map_cons, ← List.splitOn, ih hls]
    rfl

/-- Past the indentation, the line is its text. -/
theorem trimStart_chars (l : CodeLine) : trimStart l.chars = trimStart l.text.toList := by
  unfold chars
  split
  · next h => rw [h]; rfl
  · exact List.dropWhile_append_of_pos fun c hc => by rw [List.eq_of_mem_replicate hc]; decide

theorem trim_cons {c : Char} (h : isBlank c = false) (cs : List Char) :
    trim (c :: cs) = c :: trimEnd cs := by
  rw [trim, trimStart, List.dropWhile_cons_of_neg (by simp [h]), trimEnd, List.reverse_cons,
    List.dropWhile_append]
  cases hcs : (cs.reverse.dropWhile isBlank).isEmpty with
  | true => simp [trimEnd, List.isEmpty_iff.mp hcs, h]
  | false => simp [trimEnd]

theorem trim_chars_eq_iff (hl : l.Sound) {b : Char} (hb : b = '\x7b' ∨ b = '\x7d') :
    trim l.chars = [b] ↔ l.text = String.ofList [b] := by
  rw [trim, trimStart_chars, ← trim]
  rcases hl.shape with h | h | h | h
  · rcases hb with rfl | rfl <;> rw [h] <;> decide
  · rcases hb with rfl | rfl <;> rw [h] <;> decide
  · rcases hb with rfl | rfl <;> rw [h] <;> decide
  · -- a plain text keeps its first character, which is no brace
    rw [← String.toList_inj, String.toList_ofList]
    unfold isPlain at h
    cases hcs : l.text.toList with
    | nil =>
      rw [hcs] at h
      cases h
    | cons c cs =>
      simp only [hcs, List.head?_cons, Option.any_some, Bool.and_eq_true, bne_iff_ne, ne_eq,
        Bool.not_eq_true'] at h
      have hne : c ≠ b := by
        rcases hb with rfl | rfl
        · exact h.1.2
        · exact h.2
      simp [trim_cons h.1.1, hne]

theorem opensBrace_chars (hl : l.Sound) : opensBrace l.chars = true ↔ l.text = "\x7b" := by
  rw [opensBrace, beq_iff_eq]
  exact trim_chars_eq_iff hl (.inl rfl)

theorem closesBrace_chars (hl : l.Sound) : closesBrace l.chars = true ↔ l.text = "\x7d" := by
  rw [closesBrace, beq_iff_eq]
  exact trim_chars_eq_iff hl (.inr rfl)

theorem Sound.exists_cons (hl : l.Sound) (h : l.text ≠ "") :
    ∃ c rest, c ≠ ' ' ∧ l.text.toList = c :: rest := by
  rcases hl.shape with htext | htext | htext | htext
  · exact absurd htext h
  · exact ⟨'\x7b', [], by decide, by rw [htext]; rfl⟩
  · exact ⟨'\x7d', [], by decide, by rw [htext]; rfl⟩
  · unfold isPlain at htext
    cases hcs : l.text.toList with
    | nil =>
      rw [hcs] at htext
      cases htext
    | cons c cs =>
      refine ⟨c, cs, ?_, rfl⟩
      rintro rfl
      rw [hcs, List.head?_cons] at htext
      exact absurd htext (by decide)

theorem chars_eq_nil_iff : l.chars = [] ↔ l.text = "" := by
  unfold chars
  split
  · next h => simp [h]
  · next h => simp [h]

theorem dropWhile_chars (hl : l.Sound) : String.ofList (l.chars.dropWhile (· == ' ')) = l.text := by
  by_cases h : l.text = ""
  · rw [chars_eq_nil_iff.mpr h, h]
    rfl
  · obtain ⟨c, rest, hc, htext⟩ := hl.exists_cons h
    rw [chars, if_neg h, List.dropWhile_append_of_pos (by simp), htext,
      List.dropWhile_cons_of_neg (by simpa using hc), ← htext, String.ofList_toList]

/-- An opening brace adds one to the braces that are open and a closing brace takes one away; and the line
is as deep as the braces that are open beside it. -/
theorem step_counts (hl : l.Sound) (h : step n l = some m) :
    n + [l.chars].countP opensBrace = m + [l.chars].countP closesBrace ∧
      (l.text ≠ "" → l.depth + [l.chars].countP closesBrace = n) := by
  simp only [List.countP_singleton, opensBrace_chars hl, closesBrace_chars hl]
  unfold step at h
  split_ifs at h with hempty hopen hdepth hclose hdepth hdepth
  · simp [hempty] at h ⊢
    exact h
  · simp [hopen] at h ⊢
    omega
  · simp [hclose] at h ⊢
    omega
  · simp [hopen, hclose] at h ⊢
    omega

theorem walk_counts (hls : ∀ l ∈ ls, l.Sound) (h : ls.foldlM step n = some m) :
    n + (ls.map chars).countP opensBrace = m + (ls.map chars).countP closesBrace := by
  induction ls generalizing n with
  | nil => simpa using h
  | cons l ls ih =>
    obtain ⟨hl, hls⟩ := List.forall_mem_cons.mp hls
    rw [List.foldlM_cons] at h
    obtain ⟨k, hk, hrest⟩ := Option.bind_eq_some_iff.mp h
    have hstep := (step_counts hl hk).1
    have hrun := ih hls hrest
    rw [List.map_cons, ← List.singleton_append, List.countP_append, List.countP_append]
    omega

theorem headersOf_chars (h : ∀ l ∈ ls, l.Sound) : headersOf (ls.map chars) = headerTexts ls := by
  fun_induction headerTexts ls with
  | case1 => rfl
  | case2 => rfl
  | case3 a l ls hl ih =>
    obtain ⟨ha, hrest⟩ := List.forall_mem_cons.mp h
    rw [List.map_cons, List.map_cons, headersOf,
      if_pos ((opensBrace_chars (hrest l List.mem_cons_self)).mpr hl), ← List.map_cons, ih hrest,
      dropWhile_chars ha]
  | case4 a l ls hl ih =>
    obtain ⟨-, hrest⟩ := List.forall_mem_cons.mp h
    rw [List.map_cons, List.map_cons, headersOf,
      if_neg (hl ∘ (opensBrace_chars (hrest l List.mem_cons_self)).mp), ← List.map_cons, ih hrest]

theorem getLast?_render (h : ls ≠ []) : (ls.flatMap render).getLast? = some '\n' := by
  obtain ⟨as, l, rfl⟩ := (List.eq_nil_or_concat ls).resolve_left h
  rw [List.concat_eq_append, List.flatMap_append, List.flatMap_singleton, render_eq, ← List.append_assoc,
    List.getLast?_append, List.getLast?_singleton, Option.some_or]

end CodeLine

theorem Framed.isFramed {ls : List CodeLine} {headers : List String} (h : Framed ls headers) :
    IsFramed (ls.map chars) := by
  have hzero : ls.map (deeper 0) = ls := List.map_id'' (fun _ => rfl) ls
  have hwalk := h.walk 0
  rw [hzero] at hwalk
  refine ⟨?_, ?_, ?_⟩
  · rintro early ⟨late, hlate⟩
    obtain ⟨as, bs, rfl, rfl, -⟩ := List.map_eq_append_iff.mp hlate.symm
    rw [List.foldlM_append] at hwalk
    obtain ⟨k, hk, -⟩ := Option.bind_eq_some_iff.mp hwalk
    have hcounts := walk_counts (fun l hl => h.sound l (List.mem_append_left bs hl)) hk
    omega
  · have hcounts := walk_counts h.sound hwalk
    omega
  · intro early line late hcut hline
    obtain ⟨as, bs, rfl, rfl, hbs⟩ := List.map_eq_append_iff.mp hcut
    obtain ⟨l, cs, rfl, rfl, -⟩ := List.map_eq_cons_iff.mp hbs
    obtain ⟨has, hbs⟩ := List.forall_mem_append.mp h.sound
    have hl := hbs l List.mem_cons_self
    have htext : l.text ≠ "" := hline ∘ chars_eq_nil_iff.mpr
    -- the walk stands at `k` in front of the line
    rw [List.foldlM_append] at hwalk
    obtain ⟨k, hk, hwalk⟩ := Option.bind_eq_some_iff.mp hwalk
    rw [List.foldlM_cons] at hwalk
    obtain ⟨j, hj, -⟩ := Option.bind_eq_some_iff.mp hwalk
    have hcounts := walk_counts has hk
    have hdepth := (step_counts hl hj).2 htext
    obtain ⟨c, rest, hc, hchars⟩ := hl.exists_cons htext
    refine ⟨c, rest, hc, ?_⟩
    have hopen : l.depth = (as.map chars).countP opensBrace -
        (as.map chars ++ [l.chars]).countP closesBrace := by
      rw [List.countP_append]
      omega
    rw [← hopen, ← hchars, chars, if_neg htext]

/-- The text of a unit ends with a line end, its lines are well bracketed and indented, and the headers
of its braces are those of the namespace, of the container and of the classes in pre-order. -/
theorem SourceUnit.render_framed {o : CodeOptions} {u : SourceUnit} (ho : o.OneLine)
    (hu : ∀ c ∈ u.top.preorder, c.OneLine) :
    ∃ lines, (u.render o).toList.splitOn '\n' = lines ++ [[]] ∧
      (u.render o).toList.getLast? = some '\n' ∧ IsFramed lines ∧
      headersOf lines = ("namespace " ++ o.rootNamespace) ::
        ("public static partial class " ++ o.container) ::
        Source.classHeader o true u.top.name u.top.parent ::
        (ClassDef.preorderAll u.top.nested).map (Source.innerHeader o) := by
  have hframed := u.framed_codeLines ho hu
  refine ⟨(u.codeLines o).map chars, ?_, ?_, hframed.isFramed, ?_⟩
  · rw [SourceUnit.render_eq, String.toList_ofList, splitOn_render hframed.sound]
  · rw [SourceUnit.render_eq, String.toList_ofList]
    exact getLast?_render (List.cons_ne_nil _ _)
  · rw [headersOf_chars hframed.sound, hframed.headers]

/-- A class with a brace for its description, and in it a class with a class in it and one more. -/
theorem SourceUnit.render_framed_nested :
    let inner : ClassDef := ⟨"Inner", none, .function (.sequence (.scalar .int32)), some "inner", [], []⟩
    let outer : ClassDef := ⟨"Outer", some "\x7d", .root, none,
      [⟨"Id", "id", some "\x7b", .named (some "Ok") "Chat", .plain⟩], [inner]⟩
    let last : ClassDef := ⟨"Last", none, .union "\x7b", none, [], []⟩
    let u : SourceUnit := ⟨.object, "Top", ⟨"Top", some "\x7b", .root, none, [], [outer, last]⟩⟩
    ∃ lines, (u.render {}).toList.splitOn '\n' = lines ++ [[]] ∧
      (u.render {}).toList.getLast? = some '\n' ∧ IsFramed lines ∧
      headersOf lines = ["namespace Tl", "public static partial class Api",
        "public partial class Top : Object", "public class Outer : Object",
        "public class Inner : Function<int[]>", "public class Last : \x7b"] := by
  intro inner outer last u
  have hclasses : u.top.preorder = [u.top, outer, inner, last] := rfl
  obtain ⟨lines, hlines, hlast, hframed, hheaders⟩ := render_framed (o := {}) (u := u)
    (by constructor <;> decide) (by
      simp only [hclasses, List.forall_mem_cons]
      refine ⟨?_, ?_, ?_, ?_, by simp⟩
      all_goals constructor <;> simp [u, outer, inner, last, CodeType.OneLine, Parent.OneLine, IsLine]
      constructor <;> simp [CodeType.OneLine, IsLine])
  exact ⟨lines, hlines, hlast, hframed, hheaders.trans (by decide)⟩

end TypeLang
