import TypeLang.Proofs.Nesting

/-! # The grammar of declaration lines

A line is the tokens of a declaration, `name field:type ... = Result;`, with blanks around them that
may be left out except between two words. `SpacedLine` is such a line together with its blanks; it can
be written down (`SpacedLine.text`) and it says what it declares (`SpacedLine.signature`). Reading
accepts these lines and no others, and gives what they declare (`parse_eq_ok_iff_spaced`).

The work is done by one lemma about the scanner, which takes a token off the front of a text or puts
it back (`Token.scan_eq_ok_cons_iff`); the text in front of it is carried along, since the columns are
counted in its bytes. -/

namespace TypeLang

open Text Naming

/-! ### Tokens at the front of a text -/

/-- Nothing but blanks. -/
def IsGap (s : String) : Prop := ∀ c ∈ s.toList, isBlank c = true

/-- No word goes on into this text. -/
def Stops (s : String) : Prop := s.toList.head?.any Token.isWordPart = false

namespace Lexeme

/-- What a word says has the characters of a word. -/
def Proper : Lexeme → Prop
  | word w => Token.isWord w = true
  | _ => True

/-- What follows is no part of the token. Only words can go on. -/
def EndsBefore (rest : String) : Lexeme → Prop
  | word _ => Stops rest
  | _ => True

end Lexeme

namespace Token

theorem width_eq_utf8ByteSize (cs : List Char) : width cs = (String.ofList cs).utf8ByteSize := by
  induction cs with
  | nil => rfl
  | cons c cs ih =>
    rw [String.ofList_cons, String.utf8ByteSize_append, String.utf8ByteSize_singleton, ← ih]
    rfl

theorem width_toList (s : String) : width s.toList = s.utf8ByteSize := by
  rw [width_eq_utf8ByteSize, String.ofList_toList]

theorem scan_gap_append {gap : List Char} (hgap : ∀ c ∈ gap, isBlank c = true) (n : Nat)
    (cs : List Char) : scan n (gap ++ cs) = scan (n + width gap) cs := by
  induction gap generalizing n with
  | nil => rfl
  | cons c gap ih =>
    rw [List.forall_mem_cons] at hgap
    rw [List.cons_append, scan, if_pos hgap.1, ih hgap.2, Nat.add_assoc]
    rfl

theorem text_of_mark? {c : Char} {x : Lexeme} (h : mark? c = some x) :
    x.text.toList = [c] ∧ ∀ rest, x.EndsBefore rest := by
  unfold mark? at h
  split_ifs at h with h₁ h₂ h₃ <;> cases h
  · exact ⟨by rw [h₁]; rfl, fun _ => trivial⟩
  · exact ⟨by rw [h₂]; rfl, fun _ => trivial⟩
  · exact ⟨by rw [h₃]; rfl, fun _ => trivial⟩

theorem scan_mark {c : Char} {x : Lexeme} (hmark : mark? c = some x) (n : Nat) (cs : List Char) :
    scan n (c :: cs) = (scan (n + c.utf8Size) cs).map (⟨x, n⟩ :: ·) := by
  have hblank : isBlank c = false := by
    unfold mark? at hmark
    split_ifs at hmark with h₁ h₂ h₃
    · rw [h₁]; decide
    · rw [h₂]; decide
    · rw [h₃]; decide
  rw [scan, if_neg (by rw [hblank]; exact Bool.false_ne_true)]
  simp only [hmark]

theorem mark?_of_isWordStart {c : Char} (h : isWordStart c = true) : mark? c = none := by
  unfold mark?
  split_ifs with h₁ h₂ h₃
  · rw [h₁] at h; cases h
  · rw [h₂] at h; cases h
  · rw [h₃] at h; cases h
  · rfl

theorem scan_word {w rest : List Char} (hw : isWord (String.ofList w) = true)
    (hrest : rest.head?.any isWordPart = false) (n : Nat) :
    scan n (w ++ rest) = (scan (n + width w) rest).map (⟨.word (String.ofList w), n⟩ :: ·) := by
  rw [isWord, String.toList_ofList, Bool.and_eq_true] at hw
  cases w with
  | nil => cases hw.1
  | cons c w =>
    have hstart : isWordStart c = true := hw.1
    have hblank := TypeExpr.isBlank_of_isWordPart (isWordPart_of_isWordStart hstart)
    have hparts : ∀ d ∈ w, isWordPart d = true :=
      fun d hd => List.all_eq_true.mp hw.2 d (List.mem_cons_of_mem c hd)
    -- the word goes on as far as it can, and no further
    have hstop : rest.takeWhile isWordPart = [] ∧ rest.dropWhile isWordPart = rest := by
      cases rest with
      | nil => exact ⟨rfl, rfl⟩
      | cons d rest =>
        have hd : isWordPart d = false := hrest
        simp [hd]
    have htake : (w ++ rest).takeWhile isWordPart = w := by
      rw [List.takeWhile_append_of_pos hparts, hstop.1, List.append_nil]
    have hdrop : (w ++ rest).dropWhile isWordPart = rest := by
      rw [List.dropWhile_append_of_pos hparts, hstop.2]
    rw [List.cons_append, scan, if_neg (by rw [hblank]; exact Bool.false_ne_true)]
    simp only [mark?_of_isWordStart hstart, hstart, ↓reduceIte, htake, hdrop]

theorem scan_lexeme_append {x : Lexeme} {rest : String} (hx : x.Proper) (hends : x.EndsBefore rest)
    (n : Nat) : scan n (x.text ++ rest).toList =
      (scan (n + x.text.utf8ByteSize) rest.toList).map (⟨x, n⟩ :: ·) := by
  rw [String.toList_append]
  cases x with
  | equals => exact scan_mark (c := '=') rfl n rest.toList
  | colon => exact scan_mark (c := ':') rfl n rest.toList
  | semicolon => exact scan_mark (c := ';') rfl n rest.toList
  | word w =>
    have hw : isWord (String.ofList w.toList) = true := by rwa [String.ofList_toList]
    simpa only [Lexeme.text, width_toList, String.ofList_toList] using scan_word hw hends n

theorem proper_of_scan {n : Nat} {cs : List Char} {t : Token} {ts : List Token}
    (h : scan n cs = .ok (t :: ts)) : t.lexeme.Proper := by
  obtain ⟨x, column⟩ := t
  cases x with
  | word w => exact isWord_of_mem_scan h List.mem_cons_self
  | _ => trivial

theorem any_head?_dropWhile (p : Char → Bool) (cs : List Char) :
    (cs.dropWhile p).head?.any p = false := by
  have hnot := List.head?_dropWhile_not p cs
  cases h : (cs.dropWhile p).head? with
  | none => rfl
  | some c => simpa [h] using hnot

theorem exists_of_scan_eq_ok_cons {n : Nat} {cs : List Char} {t : Token} {ts : List Token}
    (h : scan n cs = .ok (t :: ts)) :
    ∃ gap rest, String.ofList cs = gap ++ t.lexeme.text ++ rest ∧ IsGap gap ∧
      t.lexeme.EndsBefore rest ∧ t.column = n + gap.utf8ByteSize ∧
      scan (t.column + t.lexeme.text.utf8ByteSize) rest.toList = .ok ts := by
  fun_induction scan n cs with
  | case1 => cases h
  | case2 n c cs hblank ih =>
    obtain ⟨gap, rest, htext, hgap, hends, hcolumn, hscan⟩ := ih h
    refine ⟨String.singleton c ++ gap, rest, ?_, ?_, hends, ?_, hscan⟩
    · rw [String.ofList_cons, htext]
      simp only [String.append_assoc]
    · intro d hd
      rw [String.toList_append, String.toList_singleton, List.singleton_append, List.mem_cons] at hd
      rcases hd with rfl | hd
      · exact hblank
      · exact hgap d hd
    · rw [hcolumn, String.utf8ByteSize_append, String.utf8ByteSize_singleton, Nat.add_assoc]
  | case3 n c cs hblank x hmark ih =>
    obtain ⟨us, hus, heq⟩ := exists_of_map_eq_ok h
    cases heq
    obtain ⟨htext, hends⟩ := text_of_mark? hmark
    have hsingle : x.text = String.singleton c := String.toList_inj.mp (by rw [htext]; simp)
    refine ⟨"", String.ofList cs, ?_, by simp [IsGap], hends _, rfl, ?_⟩
    · rw [String.ofList_cons, hsingle, String.empty_append]
    · rw [hsingle, String.utf8ByteSize_singleton, String.toList_ofList]
      exact hus
  | case4 n c cs hblank hmark hstart word =>
    obtain ⟨us, hus, heq⟩ := exists_of_map_eq_ok h
    cases heq
    refine ⟨"", String.ofList (cs.dropWhile isWordPart), ?_, by simp [IsGap], ?_, rfl, ?_⟩
    · rw [String.empty_append, Lexeme.text, ← String.ofList_append, List.cons_append,
        List.takeWhile_append_dropWhile]
    · rw [Lexeme.EndsBefore, Stops, String.toList_ofList]
      exact any_head?_dropWhile isWordPart cs
    · rw [Lexeme.text, ← width_eq_utf8ByteSize, String.toList_ofList]
      exact hus
  | case5 => cases h

/-- A token stands at the front of a text, behind some blanks. -/
theorem scan_eq_ok_cons_iff {before text : String} {t : Token} {ts : List Token} :
    scan (before.utf8ByteSize + 1) text.toList = .ok (t :: ts) ↔
      ∃ gap rest, text = gap ++ t.lexeme.text ++ rest ∧ IsGap gap ∧ t.lexeme.Proper ∧
        t.lexeme.EndsBefore rest ∧ t.column = (before ++ gap).utf8ByteSize + 1 ∧
        scan ((before ++ gap ++ t.lexeme.text).utf8ByteSize + 1) rest.toList = .ok ts := by
  constructor
  · intro h
    obtain ⟨gap, rest, htext, hgap, hends, hcolumn, hscan⟩ := exists_of_scan_eq_ok_cons h
    rw [String.ofList_toList] at htext
    have hcolumn' : t.column = (before ++ gap).utf8ByteSize + 1 := by
      rw [hcolumn, String.utf8ByteSize_append, Nat.add_right_comm]
    refine ⟨gap, rest, htext, hgap, proper_of_scan h, hends, hcolumn', ?_⟩
    rw [hcolumn', Nat.add_right_comm, ← String.utf8ByteSize_append] at hscan
    exact hscan
  · rintro ⟨gap, rest, rfl, hgap, hproper, hends, hcolumn, hscan⟩
    obtain ⟨x, column⟩ := t
    simp only at hproper hends hcolumn hscan ⊢
    rw [String.append_assoc, String.toList_append, scan_gap_append hgap,
      scan_lexeme_append hproper hends, width_toList, Nat.add_right_comm, ← String.utf8ByteSize_append,
      ← hcolumn]
    rw [String.utf8ByteSize_append, Nat.add_right_comm, ← hcolumn] at hscan
    rw [hscan]
    rfl

theorem scan_append_eq_ok (before : String) (x : Lexeme) {gap rest : String} {ts : List Token}
    (hgap : IsGap gap) (hx : x.Proper) (hends : x.EndsBefore rest)
    (h : scan ((before ++ gap ++ x.text).utf8ByteSize + 1) rest.toList = .ok ts) :
    scan (before.utf8ByteSize + 1) (gap ++ x.text ++ rest).toList =
      .ok (⟨x, (before ++ gap).utf8ByteSize + 1⟩ :: ts) :=
  scan_eq_ok_cons_iff.mpr ⟨gap, rest, rfl, hgap, hx, hends, rfl, h⟩

theorem scan_eq_ok_nil_iff {n : Nat} {text : String} :
    scan n text.toList = .ok [] ↔ IsGap text := by
  constructor
  · intro h
    unfold IsGap
    generalize text.toList = cs at h
    fun_induction scan n cs with
    | case1 => exact fun c hc => absurd hc List.not_mem_nil
    | case2 n c cs hblank ih => exact List.forall_mem_cons.mpr ⟨hblank, ih h⟩
    | case3 =>
      obtain ⟨us, -, heq⟩ := exists_of_map_eq_ok h
      cases heq
    | case4 =>
      obtain ⟨us, -, heq⟩ := exists_of_map_eq_ok h
      cases heq
    | case5 => cases h
  · intro h
    have hscan := scan_gap_append h n []
    rwa [List.append_nil, scan] at hscan

end Token

/-! ### Lines with their blanks -/

/-- A type in a line: a word whose brackets pair up. -/
structure IsType (type : String) : Prop where
  word : Token.isWord type = true
  balanced : Signature.Balanced type.toList

/-- A field, `name : type`, and the blanks in front of its tokens. -/
structure SpacedField where
  gap : String
  name : String
  colonGap : String
  typeGap : String
  type : String

/-- The end of a line, `= type ;`, with the blanks in front of its tokens and behind them. -/
structure SpacedResult where
  equalsGap : String
  typeGap : String
  type : String
  semicolonGap : String
  endGap : String

/-- A declaration line and the blanks in it. -/
structure SpacedLine where
  gap : String
  name : String
  fields : List SpacedField
  result : SpacedResult

namespace SpacedField

/-- The field as it is written. -/
def text (f : SpacedField) : String := f.gap ++ f.name ++ f.colonGap ++ ":" ++ f.typeGap ++ f.type

/-- A field stands behind a word, so there is a blank in front of it. -/
structure Grammatical (f : SpacedField) : Prop where
  gap : IsGap f.gap
  gap_ne : f.gap ≠ ""
  name : isName f.name = true
  colonGap : IsGap f.colonGap
  typeGap : IsGap f.typeGap
  type : IsType f.type

/-- The fields as they are written. -/
def textOf : List SpacedField → String
  | [] => ""
  | f :: fs => f.text ++ textOf fs

/-- What the fields declare if they stand behind the text `before`. -/
def specs (before : String) : List SpacedField → List FieldSpec
  | [] => []
  | f :: fs => ⟨f.name, f.type, (before ++ f.gap).utf8ByteSize + 1⟩ :: specs (before ++ f.text) fs

end SpacedField

namespace SpacedResult

/-- The end of the line as it is written. -/
def text (r : SpacedResult) : String :=
  r.equalsGap ++ "=" ++ r.typeGap ++ r.type ++ r.semicolonGap ++ ";" ++ r.endGap

structure Grammatical (r : SpacedResult) : Prop where
  equalsGap : IsGap r.equalsGap
  typeGap : IsGap r.typeGap
  type : IsType r.type
  semicolonGap : IsGap r.semicolonGap
  endGap : IsGap r.endGap

end SpacedResult

namespace SpacedLine

/-- The line as it is written. -/
def text (l : SpacedLine) : String := l.gap ++ l.name ++ SpacedField.textOf l.fields ++ l.result.text

/-- What the line declares. The column of a field is one more than the number of bytes in front of
its name. -/
def signature (l : SpacedLine) : Signature :=
  ⟨l.name, SpacedField.specs (l.gap ++ l.name) l.fields, l.result.type⟩

structure Grammatical (l : SpacedLine) : Prop where
  gap : IsGap l.gap
  name : isName l.name = true
  fields : ∀ f ∈ l.fields, f.Grammatical
  result : l.result.Grammatical

end SpacedLine

/-! ### Where words stop -/

section Words
variable {gap rest type name w : String} {x : Lexeme}

theorem stops_gap_append (hgap : IsGap gap) (hrest : gap = "" → Stops rest) : Stops (gap ++ rest) := by
  by_cases hne : gap = ""
  · rw [hne, String.empty_append]
    exact hrest hne
  · obtain ⟨c, cs, hcs⟩ := List.exists_cons_of_ne_nil fun hnil => hne (String.toList_eq_nil_iff.mp hnil)
    have hblank : isBlank c = true := hgap c (by rw [hcs]; exact List.mem_cons_self)
    rw [Stops, String.toList_append, hcs, List.cons_append, List.head?_cons, Option.any_some,
      Bool.eq_false_iff]
    intro hpart
    rw [TypeExpr.isBlank_of_isWordPart hpart] at hblank
    cases hblank

/-- A mark ends the word before it, with or without blanks in between. -/
theorem stops_mark {c : Char} (hgap : IsGap gap) (hmark : Token.mark? c = some x) (rest : String) :
    Stops (gap ++ x.text ++ rest) := by
  rw [String.append_assoc]
  refine stops_gap_append hgap fun _ => ?_
  rw [Stops, String.toList_append, (Token.text_of_mark? hmark).1]
  show Token.isWordPart c = false
  unfold Token.mark? at hmark
  split_ifs at hmark with h₁ h₂ h₃
  · rw [h₁]; decide
  · rw [h₂]; decide
  · rw [h₃]; decide

/-- A word that does not run into another has blanks in front of it. -/
theorem gap_ne_of_stops (hw : Token.isWord w = true) (h : Stops (gap ++ w ++ rest)) : gap ≠ "" := by
  rintro rfl
  rw [Token.isWord, Bool.and_eq_true] at hw
  cases hcs : w.toList with
  | nil => rw [hcs] at hw; cases hw.1
  | cons c cs =>
    rw [hcs] at hw
    have hpart : Token.isWordPart c = true := Token.isWordPart_of_isWordStart hw.1
    rw [Stops, String.empty_append, String.toList_append, hcs, List.cons_append, List.head?_cons,
      Option.any_some, hpart] at h
    cases h

theorem isWord_of_isName (h : isName name = true) : Token.isWord name = true := by
  rw [isName, Bool.and_eq_true, Signature.isIdentifier, List.all_eq_true] at h
  rw [Token.isWord, Bool.and_eq_true, List.all_eq_true]
  refine ⟨h.1, fun c hc => ?_⟩
  rw [Token.isWordPart, h.2 c hc]
  rfl

theorem isName_iff : isName name = true ↔
    Token.isWord name = true ∧ Signature.isIdentifier name = true := by
  refine ⟨fun h => ⟨isWord_of_isName h, ?_⟩, fun ⟨hw, hid⟩ => ?_⟩
  · rw [isName, Bool.and_eq_true] at h
    exact h.2
  · rw [Token.isWord, Bool.and_eq_true] at hw
    rw [isName, hw.1, hid]
    rfl

theorem isType_iff : IsType type ↔
    Token.isWord type = true ∧ Signature.isBalanced type = true := by
  rw [Signature.isBalanced_iff]
  exact ⟨fun h => ⟨h.word, h.balanced⟩, fun h => ⟨h.1, h.2⟩⟩

end Words

/-! ### Rows of tokens -/

namespace Signature
variable {n : Nat} {ts : List Token} {fields : List FieldSpec} {result : String}

theorem parseResult_eq_ok_iff : parseResult n ts = .ok result ↔
    isBalanced result = true ∧ ∃ c c', ts = [⟨.word result, c⟩, ⟨.semicolon, c'⟩] := by
  constructor
  · intro h
    unfold parseResult at h
    split at h
    next w c rest =>
      split at h
      next hb =>
        split at h
        · cases h; exact ⟨hb, c, _, rfl⟩
        · cases h
        · cases h
      · cases h
    · cases h
  · rintro ⟨hb, c, c', rfl⟩
    rw [parseResult, if_pos hb]

/-- After the name comes the end of the line, or a field and then again fields and the end. -/
theorem parseFields_eq_ok_iff : parseFields n ts = .ok (fields, result) ↔
    (fields = [] ∧ ∃ c rest, ts = ⟨.equals, c⟩ :: rest ∧ parseResult n rest = .ok result) ∨
    ∃ f fs c c' rest, fields = f :: fs ∧ isIdentifier f.name = true ∧ isBalanced f.type = true ∧
      ts = ⟨.word f.name, f.column⟩ :: ⟨.colon, c⟩ :: ⟨.word f.type, c'⟩ :: rest ∧
      parseFields n rest = .ok (fs, result) := by
  constructor
  · intro h
    revert h
    fun_cases parseFields n ts with
    | case1 c rest =>
      intro h
      obtain ⟨r, hr, heq⟩ := exists_of_map_eq_ok h
      cases heq
      exact .inl ⟨rfl, c, rest, rfl, hr⟩
    | case2 name column hid c type c' rest hb =>
      intro h
      obtain ⟨⟨fs, r⟩, hr, heq⟩ := exists_of_map_eq_ok h
      cases heq
      exact .inr ⟨⟨name, type, column⟩, fs, c, c', rest, rfl, hid, hb, rfl, hr⟩
    | _ => intro h; cases h
  · rintro (⟨rfl, c, rest, rfl, hr⟩ | ⟨f, fs, c, c', rest, rfl, hid, hb, rfl, hr⟩)
    · rw [parseFields, hr]
      rfl
    · rw [parseFields, if_pos hid]
      simp only [hb, ↓reduceIte, hr]
      rfl

theorem ofRow_eq_ok_iff {d : Signature} : ofRow ⟨ts, n⟩ = .ok d ↔
    isIdentifier d.name = true ∧ ∃ c rest, ts = ⟨.word d.name, c⟩ :: rest ∧
      parseFields n rest = .ok (d.fields, d.result) := by
  constructor
  · intro h
    unfold ofRow at h
    split at h
    next name c rest htokens =>
      split at h
      next hid =>
        obtain ⟨⟨fs, r⟩, hr, rfl⟩ := exists_of_map_eq_ok h
        exact ⟨hid, c, rest, htokens, hr⟩
      · cases h
    · cases h
  · rintro ⟨hid, c, rest, rfl, hr⟩
    simp only [ofRow, hid, ↓reduceIte, hr]
    rfl

theorem parse_eq_ok_iff {text : String} {d : Signature} : parse text = .ok d ↔
    ∃ ts, Token.scan ("".utf8ByteSize + 1) text.toList = .ok ts ∧ isIdentifier d.name = true ∧
      ∃ c rest, ts = ⟨.word d.name, c⟩ :: rest ∧
        parseFields (Token.width text.toList + 1) rest = .ok (d.fields, d.result) := by
  constructor
  · intro h
    obtain ⟨row, hrow, h⟩ := exists_of_bind_eq_ok h
    obtain ⟨ts, hscan, rfl⟩ := exists_of_map_eq_ok hrow
    exact ⟨ts, hscan, ofRow_eq_ok_iff.mp h⟩
  · rintro ⟨ts, hscan, h⟩
    have hscan' : Token.scan 1 text.toList = .ok ts := hscan
    rw [parse, TokenRow.ofLine, hscan']
    exact ofRow_eq_ok_iff.mpr h

end Signature

/-! ### Reading the parts of a line -/

open Signature

/-- The text, which stands behind `before`, is read as fields and a result. -/
def Reads (n : Nat) (before text : String) (fields : List FieldSpec) (result : String) : Prop :=
  ∃ ts, Token.scan (before.utf8ByteSize + 1) text.toList = .ok ts ∧
    parseFields n ts = .ok (fields, result)

section Reading
variable {n : Nat} {before text : String} {fields : List FieldSpec} {result : String}

theorem reads_result_iff : Reads n before text [] result ↔
    ∃ r : SpacedResult, r.Grammatical ∧ text = r.text ∧ r.type = result := by
  constructor
  · rintro ⟨ts, hscan, hparse⟩
    rcases parseFields_eq_ok_iff.mp hparse with ⟨-, c, rest, rfl, hr⟩ | ⟨_, _, _, _, _, hcons, -⟩
    · obtain ⟨hb, c₁, c₂, rfl⟩ := parseResult_eq_ok_iff.mp hr
      obtain ⟨g₁, t₁, rfl, hg₁, -, -, -, hscan⟩ := Token.scan_eq_ok_cons_iff.mp hscan
      obtain ⟨g₂, t₂, rfl, hg₂, hw, -, -, hscan⟩ := Token.scan_eq_ok_cons_iff.mp hscan
      obtain ⟨g₃, t₃, rfl, hg₃, -, -, -, hscan⟩ := Token.scan_eq_ok_cons_iff.mp hscan
      refine ⟨⟨g₁, g₂, result, g₃, t₃⟩, ⟨hg₁, hg₂, isType_iff.mpr ⟨hw, hb⟩, hg₃,
        Token.scan_eq_ok_nil_iff.mp hscan⟩, ?_, rfl⟩
      simp only [SpacedResult.text, Lexeme.text, String.append_assoc]
    · cases hcons
  · rintro ⟨r, hr, rfl, rfl⟩
    have hsemicolon := Token.scan_append_eq_ok (before ++ r.equalsGap ++ "=" ++ r.typeGap ++ r.type)
      .semicolon hr.semicolonGap trivial trivial (Token.scan_eq_ok_nil_iff.mpr hr.endGap)
    have htype := Token.scan_append_eq_ok _ (.word r.type) hr.typeGap hr.type.word
      (stops_mark (c := ';') hr.semicolonGap rfl _) hsemicolon
    have hequals := Token.scan_append_eq_ok _ .equals hr.equalsGap trivial trivial htype
    have htext : r.text = r.equalsGap ++ "=" ++ (r.typeGap ++ r.type ++
        (r.semicolonGap ++ ";" ++ r.endGap)) := by
      simp only [SpacedResult.text, String.append_assoc]
    rw [htext]
    refine ⟨_, hequals, parseFields_eq_ok_iff.mpr (.inl ⟨rfl, _, _, rfl, ?_⟩)⟩
    exact parseResult_eq_ok_iff.mpr ⟨(isType_iff.mp hr.type).2, _, _, rfl⟩

theorem reads_field_iff {f : FieldSpec} : Reads n before text (f :: fields) result ↔
    ∃ (g : SpacedField) (rest : String), text = g.text ++ rest ∧ IsGap g.gap ∧ isName g.name = true ∧
      IsGap g.colonGap ∧ IsGap g.typeGap ∧ IsType g.type ∧ Stops rest ∧
      f = ⟨g.name, g.type, (before ++ g.gap).utf8ByteSize + 1⟩ ∧
      Reads n (before ++ g.text) rest fields result := by
  constructor
  · rintro ⟨ts, hscan, hparse⟩
    rcases parseFields_eq_ok_iff.mp hparse with ⟨hnil, -⟩ | ⟨f', fs, c, c', rest, hcons, hid, hb, rfl, hr⟩
    · cases hnil
    · cases hcons
      obtain ⟨g₁, t₁, rfl, hg₁, hname, -, hcolumn, hscan⟩ := Token.scan_eq_ok_cons_iff.mp hscan
      obtain ⟨g₂, t₂, rfl, hg₂, -, -, -, hscan⟩ := Token.scan_eq_ok_cons_iff.mp hscan
      obtain ⟨g₃, t₃, rfl, hg₃, htype, hstops, -, hscan⟩ := Token.scan_eq_ok_cons_iff.mp hscan
      refine ⟨⟨g₁, f.name, g₂, g₃, f.type⟩, t₃, ?_, hg₁, isName_iff.mpr ⟨hname, hid⟩, hg₂, hg₃,
        isType_iff.mpr ⟨htype, hb⟩, hstops, ?_, rest, ?_, hr⟩
      · simp only [SpacedField.text, Lexeme.text, String.append_assoc]
      · rw [← hcolumn]
      · rw [← hscan]
        simp only [SpacedField.text, Lexeme.text, String.append_assoc]
  · rintro ⟨g, rest, rfl, hgap, hname, hcolon, htypeGap, htype, hstops, rfl, ts, hscan, hparse⟩
    have hbehind : before ++ g.text =
        before ++ g.gap ++ g.name ++ g.colonGap ++ ":" ++ g.typeGap ++ g.type := by
      simp only [SpacedField.text, String.append_assoc]
    rw [hbehind] at hscan
    have hscan₃ := Token.scan_append_eq_ok _ (.word g.type) htypeGap htype.word hstops hscan
    have hscan₂ := Token.scan_append_eq_ok _ .colon hcolon trivial trivial hscan₃
    have hscan₁ := Token.scan_append_eq_ok _ (.word g.name) hgap (isName_iff.mp hname).1
      (stops_mark (c := ':') hcolon rfl _) hscan₂
    have htext : g.text ++ rest = g.gap ++ g.name ++ (g.colonGap ++ ":" ++
        (g.typeGap ++ g.type ++ rest)) := by
      simp only [SpacedField.text, String.append_assoc]
    rw [htext]
    exact ⟨_, hscan₁, parseFields_eq_ok_iff.mpr (.inr ⟨_, fields, _, _, ts, rfl,
      (isName_iff.mp hname).2, (isType_iff.mp htype).2, rfl, hparse⟩)⟩

/-- The row of fields and the end of the line behind the text `before`. -/
theorem stops_and_reads_iff : Stops text ∧ Reads n before text fields result ↔
    ∃ (fs : List SpacedField) (r : SpacedResult), (∀ f ∈ fs, f.Grammatical) ∧ r.Grammatical ∧
      text = SpacedField.textOf fs ++ r.text ∧ SpacedField.specs before fs = fields ∧
      r.type = result := by
  induction fields generalizing before text with
  | nil =>
    rw [reads_result_iff]
    constructor
    · rintro ⟨-, r, hr, rfl, rfl⟩
      exact ⟨[], r, fun f hf => absurd hf List.not_mem_nil, hr,
        by rw [SpacedField.textOf, String.empty_append], rfl, rfl⟩
    · rintro ⟨fs, r, -, hr, rfl, hspecs, rfl⟩
      cases fs with
      | cons f fs => cases hspecs
      | nil =>
        rw [SpacedField.textOf, String.empty_append]
        refine ⟨?_, r, hr, rfl, rfl⟩
        have hstops := stops_mark (c := '=') hr.equalsGap rfl
          (r.typeGap ++ r.type ++ r.semicolonGap ++ ";" ++ r.endGap)
        simpa only [SpacedResult.text, Lexeme.text, String.append_assoc] using hstops
  | cons f fields ih =>
    rw [reads_field_iff]
    constructor
    · rintro ⟨hstops, g, rest, rfl, hgap, hname, hcolon, htypeGap, htype, hrest, rfl, hreads⟩
      obtain ⟨fs, r, hfs, hr, rfl, rfl, rfl⟩ := ih.mp ⟨hrest, hreads⟩
      replace hstops : Stops (g.gap ++ g.name ++
          (g.colonGap ++ ":" ++ g.typeGap ++ g.type ++ (SpacedField.textOf fs ++ r.text))) := by
        simpa only [SpacedField.text, String.append_assoc] using hstops
      have hne : g.gap ≠ "" := gap_ne_of_stops (isName_iff.mp hname).1 hstops
      refine ⟨g :: fs, r, List.forall_mem_cons.mpr ⟨⟨hgap, hne, hname, hcolon, htypeGap, htype⟩, hfs⟩,
        hr, ?_, rfl, rfl⟩
      rw [SpacedField.textOf, String.append_assoc]
    · rintro ⟨fs, r, hfs, hr, rfl, hspecs, rfl⟩
      cases fs with
      | nil => cases hspecs
      | cons g fs =>
        obtain ⟨hg, hfs⟩ := List.forall_mem_cons.mp hfs
        obtain ⟨rfl, rfl⟩ := List.cons.inj hspecs
        obtain ⟨hstops, hreads⟩ := ih.mpr ⟨fs, r, hfs, hr, rfl, rfl, rfl⟩
        refine ⟨?_, g, SpacedField.textOf fs ++ r.text, ?_, hg.gap, hg.name, hg.colonGap, hg.typeGap,
          hg.type, hstops, rfl, hreads⟩
        · rw [SpacedField.textOf, SpacedField.text]
          simp only [String.append_assoc]
          exact stops_gap_append hg.gap fun hnil => absurd hnil hg.gap_ne
        · rw [SpacedField.textOf, String.append_assoc]

end Reading

/-- A text is read as a declaration exactly if it is a declaration line of the grammar, with any
blanks; and then what is read is what the line declares, with the column of each field. -/
theorem Signature.parse_eq_ok_iff_spaced (text : String) (d : Signature) :
    parse text = .ok d ↔ ∃ l : SpacedLine, l.Grammatical ∧ l.text = text ∧ l.signature = d := by
  rw [parse_eq_ok_iff]
  constructor
  · rintro ⟨ts, hscan, hid, c, rest, rfl, hparse⟩
    obtain ⟨gap, rest, rfl, hgap, hname, hstops, -, hscan⟩ := Token.scan_eq_ok_cons_iff.mp hscan
    obtain ⟨fs, r, hfs, hr, rfl, hspecs, hresult⟩ := stops_and_reads_iff.mp ⟨hstops, _, hscan, hparse⟩
    refine ⟨⟨gap, d.name, fs, r⟩, ⟨hgap, isName_iff.mpr ⟨hname, hid⟩, hfs, hr⟩, ?_, ?_⟩
    · simp only [SpacedLine.text, Lexeme.text, String.append_assoc]
    · rw [String.empty_append] at hspecs
      simp only [SpacedLine.signature, hresult]
      rw [show gap ++ d.name = gap ++ (Lexeme.word d.name).text from rfl, hspecs]
  · rintro ⟨l, hl, rfl, rfl⟩
    obtain ⟨hword, hid⟩ := isName_iff.mp hl.name
    have hrest : Stops (SpacedField.textOf l.fields ++ l.result.text) ∧
        Reads (Token.width l.text.toList + 1) ("" ++ l.gap ++ l.name)
          (SpacedField.textOf l.fields ++ l.result.text)
          (SpacedField.specs ("" ++ l.gap ++ l.name) l.fields) l.result.type :=
      stops_and_reads_iff.mpr ⟨l.fields, l.result, hl.fields, hl.result, rfl, rfl, rfl⟩
    obtain ⟨hstops, ts, hscan, hparse⟩ := hrest
    have hname := Token.scan_append_eq_ok "" (.word l.name) hl.gap hword hstops hscan
    have htext : l.text = l.gap ++ l.name ++ (SpacedField.textOf l.fields ++ l.result.text) := by
      simp only [SpacedLine.text, String.append_assoc]
    rw [String.empty_append, htext] at hparse
    rw [htext]
    exact ⟨_, hname, hid, _, ts, rfl, hparse⟩

-- columns count bytes, of which the blank before the field takes three
example : Signature.parse "a\u3000b:int32=A ;" = .ok ⟨"a", [⟨"b", "int32", 5⟩], "A"⟩ := by
  decide +kernel

end TypeLang
