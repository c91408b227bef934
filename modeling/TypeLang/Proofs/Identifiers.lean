import TypeLang.Proofs.Grammar
import TypeLang.Proofs.Members

/-! # Identifiers in generated code

The names in a declaration line are identifiers, but their Pascal case need not be one: without its
underscores a name may be empty or start with a digit. It is an identifier exactly if the first
character that is no underscore is a letter (`isName_pascal`). Case does not matter for this, so the
underscore that sets a member apart from its class changes nothing (`isName_member_iff`), and the class
of a union that has the letters of the type itself needs no test of its own. A union may also be a
generic type, and then the brackets are there in the name of its class (`isName_pascal_of_isGeneric`). -/

namespace TypeLang

open Text

namespace Naming
variable {s t n field : String} {cs : List Char}

/-- Whether the name starts with a letter, once the underscores at its start are dropped. -/
def leadsWithLetter (s : String) : Bool := (s.toList.dropWhile (· == '_')).head?.any Char.isAlpha

/-- Whether the text starts with a letter. -/
def startsWithLetter (s : String) : Bool := s.toList.head?.any Char.isAlpha

theorem isAlpha_of_word {c : Char} (h : (c.isAlphanum || c == '_') = true) :
    c.toUpper.isAlpha = c.isAlpha ∧ c.toLower.isAlpha = c.isAlpha :=
  forall_word (P := fun c => c.toUpper.isAlpha = c.isAlpha ∧ c.toLower.isAlpha = c.isAlpha) h
    (by decide)

theorem lowerChar_of_word {c : Char} (h : (c.isAlphanum || c == '_') = true) :
    lowerChar c = [c.toLower] := by
  rw [lowerChar, if_pos (Nat.lt_of_le_of_lt (code_of_word h).2 (by decide))]

/-! ### Lower case -/

theorem startsWithLetter_lower (h : Signature.isIdentifier s = true) :
    startsWithLetter (lower s) = startsWithLetter s := by
  rw [startsWithLetter, startsWithLetter, lower, String.toList_ofList]
  rw [Signature.isIdentifier] at h
  cases hs : s.toList with
  | nil => rfl
  | cons c cs =>
    rw [hs, List.all_cons, Bool.and_eq_true] at h
    have hne : c ≠ 'Σ' := by
      rintro rfl
      exact absurd h.1 (by decide)
    rw [lowerAfter, if_neg hne, lowerChar_of_word h.1]
    exact (isAlpha_of_word h.1).2

theorem startsWithLetter_of_sameLetters (hs : Signature.isIdentifier s = true)
    (ht : Signature.isIdentifier t = true) (h : sameLetters s t = true) :
    startsWithLetter s = startsWithLetter t := by
  rw [← startsWithLetter_lower hs, eq_of_beq h, startsWithLetter_lower ht]

/-! ### Pascal case -/

theorem word_of_mem_pascalFrom (hcs : ∀ c ∈ cs, (c.isAlphanum || c == '_') = true) (start : Bool)
    {c : Char} (hc : c ∈ pascalFrom start cs) : (c.isAlphanum || c == '_') = true := by
  induction cs generalizing start with
  | nil => cases hc
  | cons d cs ih =>
    obtain ⟨hd, hcs⟩ := List.forall_mem_cons.mp hcs
    rw [pascalFrom] at hc
    split at hc
    · exact ih hcs _ hc
    · rcases List.mem_append.mp hc with hc | hc
      · obtain ⟨hup, hword, -⟩ := upperChar_of_word hd
        split at hc
        · rw [hup, List.mem_singleton] at hc
          rw [hc]
          exact hword
        · rw [List.mem_singleton.mp hc]
          exact hd
      · exact ih hcs _ hc

theorem isIdentifier_pascal (h : Signature.isIdentifier s = true) :
    Signature.isIdentifier (pascal s) = true := by
  rw [Signature.isIdentifier, List.all_eq_true] at h ⊢
  rw [pascal, String.toList_ofList]
  exact fun c hc => word_of_mem_pascalFrom h true hc

/-- Pascal case starts with the first character that is no underscore. -/
theorem head?_pascalFrom (hcs : ∀ c ∈ cs, (c.isAlphanum || c == '_') = true) :
    (pascalFrom true cs).head? = (cs.dropWhile (· == '_')).head?.map Char.toUpper := by
  induction cs with
  | nil => rfl
  | cons c cs ih =>
    obtain ⟨hc, hcs⟩ := List.forall_mem_cons.mp hcs
    rw [pascalFrom, List.dropWhile_cons]
    split
    · next h => rw [ih hcs, if_pos (beq_iff_eq.mpr h)]
    · next h =>
      rw [if_pos rfl, (upperChar_of_word hc).1, if_neg (by rwa [beq_iff_eq])]
      rfl

theorem startsWithLetter_pascal (h : Signature.isIdentifier s = true) :
    startsWithLetter (pascal s) = leadsWithLetter s := by
  rw [Signature.isIdentifier, List.all_eq_true] at h
  rw [startsWithLetter, leadsWithLetter, pascal, String.toList_ofList, head?_pascalFrom h]
  cases hd : (s.toList.dropWhile (· == '_')).head? with
  | none => rfl
  | some c =>
    have hc : c ∈ s.toList := (List.dropWhile_sublist _).mem (List.mem_of_mem_head? hd)
    exact (isAlpha_of_word (h c hc)).1

theorem isName_pascal (h : Signature.isIdentifier s = true) :
    isName (pascal s) = leadsWithLetter s := by
  rw [isName, isIdentifier_pascal h, Bool.and_true, ← startsWithLetter_pascal h, startsWithLetter]
  have hnot := underscore_not_mem_pascal s
  cases hs : (pascal s).toList with
  | nil => rfl
  | cons c cs =>
    rw [hs] at hnot
    have hne : (c == '_') = false := by
      rw [beq_eq_false_iff_ne]
      rintro rfl
      exact hnot List.mem_cons_self
    simp only [List.head?_cons, Option.any_some, Token.isWordStart, hne, Bool.or_false]

/-- Names that have the same letters in Pascal case start alike. -/
theorem leadsWithLetter_of_sameLetters (hs : Signature.isIdentifier s = true)
    (ht : Signature.isIdentifier t = true) (h : sameLetters (pascal s) (pascal t) = true) :
    leadsWithLetter s = leadsWithLetter t := by
  rw [← startsWithLetter_pascal hs, ← startsWithLetter_pascal ht,
    startsWithLetter_of_sameLetters (isIdentifier_pascal hs) (isIdentifier_pascal ht) h]

/-! ### Members and classes -/

theorem isName_append_underscore (h : isName s = true) : isName (s ++ "_") = true := by
  obtain ⟨c, cs, hs, -, -⟩ := exists_cons_of_isStem (isStem_of_isName h)
  rw [isName, Signature.isIdentifier, Bool.and_eq_true] at h ⊢
  rw [hs] at h
  rw [String.toList_append, hs, List.all_append, h.2]
  exact ⟨h.1, by decide⟩

/-- Beside a class whose name is an identifier, a member is named by an identifier exactly if the
Pascal case of its field is one. -/
theorem isName_member_iff (hn : Signature.isIdentifier n = true)
    (hf : Signature.isIdentifier field = true) (hclass : leadsWithLetter n = true) :
    isName (member field (pascal n)) = true ↔ leadsWithLetter field = true := by
  rw [member]
  split
  · next hsame =>
    have hlead : leadsWithLetter field = true := by
      rw [leadsWithLetter_of_sameLetters hf hn hsame, hclass]
    exact iff_of_true (isName_append_underscore (by rw [isName_pascal hf, hlead])) hlead
  · rw [isName_pascal hf]

theorem bracket_not_mem_of_isIdentifier (h : Signature.isIdentifier s = true) : '<' ∉ s.toList :=
  fun hc => absurd (List.all_eq_true.mp h _ hc) (by decide)

theorem bracket_mem_pascal {e : TypeExpr} (h : e.isGeneric = true) :
    '<' ∈ (pascal e.text).toList := by
  rw [mem_pascal_iff (by decide)]
  cases e with
  | name s => cases h
  | generic outer a => exact ⟨by simp [TypeExpr.text], by decide⟩

theorem isName_pascal_of_isGeneric {e : TypeExpr} (h : e.isGeneric = true) :
    isName (pascal e.text) = false := by
  rw [Bool.eq_false_iff]
  intro hname
  rw [isName, Bool.and_eq_true] at hname
  exact bracket_not_mem_of_isIdentifier hname.2 (bracket_mem_pascal h)

end Naming

open Naming Registry Admission

/-! ### Units -/

namespace SourceUnit

/-- The names of its classes and members are identifiers. -/
structure Spelled (u : SourceUnit) : Prop where
  classes : ∀ c ∈ u.top.spine, isName c = true
  members : ∀ m ∈ u.top.innermost.members, isName m.name = true

namespace Presents
variable {u : SourceUnit} {name : String} {union : Option String} {fields : List String}

theorem members_iff (h : u.Presents name union fields) :
    (∀ m ∈ u.top.innermost.members, isName m.name = true) ↔
      ∀ f ∈ fields, isName (member f (pascal name)) = true := by
  have hnames := h.members
  constructor
  · intro hall f hf
    obtain ⟨m, hm, hname⟩ := List.mem_map.mp (hnames ▸ List.mem_map_of_mem hf)
    exact hname ▸ hall m hm
  · intro hall m hm
    obtain ⟨f, hf, hname⟩ := List.mem_map.mp (hnames ▸ List.mem_map_of_mem hm)
    exact hname ▸ hall f hf

theorem classes_iff (h : u.Presents name union fields) :
    (∀ c ∈ u.top.spine, isName c = true) ↔ isName (pascal name) = true ∧
      ∀ b, union = some b → sameLetters (pascal b) (pascal name) = false →
        isName (pascal b) = true := by
  rw [h.spine]
  cases union with
  | none => simp
  | some b =>
    cases hsame : sameLetters (pascal b) (pascal name) <;> simp [Option.filter, hsame, and_comm]

/-- All names are identifiers exactly if letters lead in the names of the type and of its fields and
the name of the union is one, provided that case does not matter for the union. -/
theorem spelled_iff (h : u.Presents name union fields) (hname : Signature.isIdentifier name = true)
    (hfields : ∀ f ∈ fields, Signature.isIdentifier f = true)
    (hunion : ∀ b, union = some b → sameLetters (pascal b) (pascal name) = true →
      leadsWithLetter name = true → isName (pascal b) = true) :
    u.Spelled ↔ leadsWithLetter name = true ∧ (∀ f ∈ fields, leadsWithLetter f = true) ∧
      ∀ b, union = some b → isName (pascal b) = true := by
  constructor
  · rintro ⟨hclasses, hmembers⟩
    rw [h.classes_iff, isName_pascal hname] at hclasses
    obtain ⟨hlead, hother⟩ := hclasses
    rw [h.members_iff] at hmembers
    refine ⟨hlead, fun f hf => ?_, fun b hb => ?_⟩
    · exact (isName_member_iff hname (hfields f hf) hlead).mp (hmembers f hf)
    · cases hsame : sameLetters (pascal b) (pascal name) with
      | true => exact hunion b hb hsame hlead
      | false => exact hother b hb hsame
  · rintro ⟨hlead, hall, hb⟩
    have hclass : isName (pascal name) = true := by rw [isName_pascal hname, hlead]
    refine ⟨h.classes_iff.mpr ⟨hclass, fun b hu _ => hb b hu⟩, h.members_iff.mpr fun f hf => ?_⟩
    exact (isName_member_iff hname (hfields f hf) hlead).mpr (hall f hf)

end Presents

end SourceUnit

/-! ### Declarations -/

theorem Signature.isIdentifier_of_parseFields {n : Nat} {ts : List Token} {fields : List FieldSpec}
    {result : String} (h : parseFields n ts = .ok (fields, result)) :
    ∀ f ∈ fields, isIdentifier f.name = true := by
  induction fields generalizing ts with
  | nil => exact fun f hf => by cases hf
  | cons f fs ih =>
    rcases parseFields_eq_ok_iff.mp h with ⟨hnil, -⟩ | ⟨f', fs', c, c', rest, heq, hid, -, -, hrest⟩
    · cases hnil
    · cases heq
      exact List.forall_mem_cons.mpr ⟨hid, ih hrest⟩

section Unions
variable {token name : String} {e : TypeExpr} (hw : Token.isWord token = true)
  (hscalar : Scalar.ofToken? token = none) (he : TypeExpr.parse? token = some e)
include hw hscalar he

/-- A type in a line that is no scalar is a plain name, which stands for itself, or it is generic. -/
theorem plain_or_isGeneric :
    (Signature.isIdentifier token = true ∧ token ≠ bytesToken ∧ e = .name token) ∨
      ¬ (Signature.isIdentifier token = true ∧ token ≠ bytesToken) ∧ e.isGeneric = true := by
  by_cases hplain : Signature.isIdentifier token = true ∧ token ≠ bytesToken
  · rw [parse?_of_isIdentifier hplain.1, TypeExpr.ofBare, if_neg hplain.2, normalizeBare,
      if_neg hplain.2, hscalar] at he
    exact .inl ⟨hplain.1, hplain.2, (Option.some.inj he).symm⟩
  · refine .inr ⟨hplain, ?_⟩
    by_contra hgen
    rw [Bool.not_eq_true] at hgen
    obtain ⟨bare, hstem, hleaf, hbare⟩ := TypeExpr.exists_bare_of_isWord hw he
    rw [hbare hgen, isStem, Bool.and_eq_true] at hstem
    refine hplain ⟨hstem.2, fun hbytes => ?_⟩
    rw [parse?_of_isIdentifier hstem.2, TypeExpr.ofBare, if_pos hbytes] at he
    cases he
    cases hgen

theorem isName_union_iff :
    isName (pascal e.text) = true ↔ Signature.isIdentifier token = true ∧ token ≠ bytesToken ∧
      leadsWithLetter token = true := by
  rcases plain_or_isGeneric hw hscalar he with ⟨hid, hbytes, rfl⟩ | ⟨hnot, hgen⟩
  · rw [TypeExpr.text, isName_pascal hid]
    exact ⟨fun h => ⟨hid, hbytes, h⟩, fun h => h.2.2⟩
  · rw [isName_pascal_of_isGeneric hgen]
    exact iff_of_false Bool.false_ne_true fun h => hnot ⟨h.1, h.2.1⟩

/-- A union that has the letters of an identifier, but for its case, is no generic type. -/
theorem isName_union_of_sameLetters (hname : Signature.isIdentifier name = true)
    (hsame : sameLetters (pascal e.text) (pascal name) = true) (hlead : leadsWithLetter name = true) :
    isName (pascal e.text) = true := by
  rcases plain_or_isGeneric hw hscalar he with ⟨hid, -, rfl⟩ | ⟨-, hgen⟩
  · rw [TypeExpr.text, isName_pascal hid, leadsWithLetter_of_sameLetters hid hname hsame, hlead]
  · have hbracket := (mem_iff_of_sameLetters hsame (by decide)).mp (bracket_mem_pascal hgen)
    exact absurd hbracket (bracket_not_mem_of_isIdentifier (isIdentifier_pascal hname))

end Unions

theorem Admission.ofToken?_result {decl : Declaration} {g g' : Registry}
    (h : Accepts .types decl g g') : Scalar.ofToken? decl.result = none := by
  obtain ⟨id, hid⟩ := h
  cases hu : isScalarUnion decl.result with
  | true =>
    rw [addType, hu, if_pos rfl] at hid
    cases hid
  | false =>
    rw [isScalarUnion, Bool.or_eq_false_iff] at hu
    exact Option.not_isSome_iff_eq_none.mp (Bool.eq_false_iff.mp hu.2)

/-- The classes and members in the unit of a declaration that was read from a line are named by
identifiers exactly if, after the underscores at its start, the declared name starts with a letter, and
so does the name of each field and, for a type, the union, which must be a plain name. The unit is one
of those that are written, but for `bytes`. -/
theorem spelled_iff_letters_lead {kind : Kind} {text : String} {decl : Declaration}
    {g g' g₂ : Registry} (hparse : Signature.parse text = .ok decl.toSignature) (hg : g.Built)
    (h : Accepts kind decl g g') (hlater : Leads g' g₂) :
    ∃ u, g₂.unitFor? kind decl.name = some u ∧
      ((kind = .types → decl.name ≠ bytesToken) → u ∈ g₂.unitsOf kind.unit) ∧
      (u.Spelled ↔ leadsWithLetter decl.name = true ∧
        (∀ f ∈ decl.fields, leadsWithLetter f.name = true) ∧
        (kind = .types → decl.name ≠ bytesToken ∧ Signature.isIdentifier decl.result = true ∧
          decl.result ≠ bytesToken ∧ leadsWithLetter decl.result = true)) := by
  have hspelled := Signature.spelled_of_parse hparse
  obtain ⟨-, -, hid, c, rest, -, hrest⟩ := Signature.parse_eq_ok_iff.mp hparse
  have hfields : ∀ f ∈ decl.fields.map (·.name), Signature.isIdentifier f = true :=
    List.forall_mem_map.mpr (Signature.isIdentifier_of_parseFields hrest)
  cases kind with
  | functions =>
    obtain ⟨u, hu, hmem, hpresents⟩ := exists_unit_of_function hg h hlater
    refine ⟨u, hu, fun _ => hmem, ?_⟩
    rw [hpresents.spelled_iff hid hfields (fun b hb => by cases hb), List.forall_mem_map]
    simp
  | types =>
    obtain ⟨s, u, hshape, hfits, hu, hmem, hpresents⟩ := exists_unit_of_type hg h hlater
    obtain ⟨hname, -, hresult⟩ := Declaration.shape?_eq_some_iff.mp hshape
    have hscalar := ofToken?_result h
    by_cases hbytes : decl.name = bytesToken
    · -- the class would be that of the sequence that `bytes` stands for
      have hgen : s.name.isGeneric = true := by
        rw [parse?_of_isIdentifier hid, TypeExpr.ofBare, if_pos hbytes] at hname
        rw [← Option.some.inj hname]
        rfl
      refine ⟨u, hu, fun hne => absurd hbytes (hne rfl), iff_of_false (fun hspelled => ?_) ?_⟩
      · have hclass := (hpresents.classes_iff.mp hspelled.classes).1
        rw [isName_pascal_of_isGeneric hgen] at hclass
        cases hclass
      · exact fun hlead => (hlead.2.2 rfl).1 hbytes
    · have hplain := shape_name hg.settled hshape hfits hid hbytes
      replace hpresents : u.Presents decl.name (some s.result.text) (decl.fields.map (·.name)) := by
        rw [hplain] at hpresents
        exact hpresents
      refine ⟨u, hu, fun _ => hmem (by rw [hplain]; rfl), ?_⟩
      rw [hpresents.spelled_iff hid hfields fun b hb hsame hlead => ?_, List.forall_mem_map]
      · simp [isName_union_iff hspelled.result hscalar hresult, hbytes]
      · cases hb
        exact isName_union_of_sameLetters hspelled.result hscalar hresult hid hsame hlead

/-- A type and a field that start with underscores, and a field that has the letters of the type. -/
def photo : Declaration where
  name := "_photo_2"
  fields := [⟨"_id", "vector<int53>", 10⟩, ⟨"photo2", "string", 28⟩]
  result := "Media_"
  line := 1
  docs := {}

theorem spelled_iff_letters_lead_photo :
    Signature.parse "_photo_2 _id:vector<int53> photo2:string = Media_;" = .ok photo.toSignature ∧
    ∃ g u, Accepts .types photo initial g ∧ g.unitFor? .types "_photo_2" = some u ∧
      (u.top.spine = ["Media", "Photo2"] ∧
        u.top.innermost.members.map (·.name) = ["Id", "Photo2_"]) ∧ u.Spelled := by
  have hparse : Signature.parse "_photo_2 _id:vector<int53> photo2:string = Media_;" =
      .ok photo.toSignature := by decide +kernel
  have hrun : unitPasses photo (fun u => u.top.spine = ["Media", "Photo2"] ∧
      u.top.innermost.members.map (·.name) = ["Id", "Photo2_"]) = true := by decide +kernel
  obtain ⟨g, v, haccepts, hv, hnames⟩ := exists_of_unitPasses hrun
  obtain ⟨u, hu, -, hspelled⟩ := spelled_iff_letters_lead hparse .refl haccepts .refl
  obtain rfl : v = u := Option.some.inj (hv.symm.trans hu)
  refine ⟨hparse, g, v, haccepts, hu, of_decide_eq_true hnames, hspelled.mpr ⟨?_, ?_, fun _ => ?_⟩⟩
  · decide
  · decide
  · decide

/-- The class of a type may start with a digit, that of a union may have brackets, and the name of a
member may be empty. -/
theorem names_not_identifiers :
    (¬ ∀ (kind : Kind) (text : String) (decl : Declaration) (g g' : Registry) (u : SourceUnit),
      Signature.parse text = .ok decl.toSignature → g.Built → Accepts kind decl g g' →
      g'.unitFor? kind decl.name = some u → isName u.top.innermost.name = true) ∧
    (¬ ∀ (kind : Kind) (text : String) (decl : Declaration) (g g' : Registry) (u : SourceUnit),
      Signature.parse text = .ok decl.toSignature → g.Built → Accepts kind decl g g' →
      g'.unitFor? kind decl.name = some u → isName u.top.name = true) ∧
    (¬ ∀ (kind : Kind) (text : String) (decl : Declaration) (g g' : Registry) (u : SourceUnit),
      Signature.parse text = .ok decl.toSignature → g.Built → Accepts kind decl g g' →
      g'.unitFor? kind decl.name = some u →
      ∀ m ∈ u.top.innermost.members, isName m.name = true) := by
  refine ⟨fun hall => ?_, fun hall => ?_, fun hall => ?_⟩
  · have hrun : unitPasses ⟨⟨"_1", [], "A"⟩, 1, {}⟩ (·.top.innermost.name == "1") = true := by
      decide +kernel
    obtain ⟨g, u, haccepts, hu, hname⟩ := exists_of_unitPasses hrun
    have hident := hall .types "_1 = A;" _ initial g u (by decide +kernel) .refl haccepts hu
    rw [eq_of_beq hname] at hident
    revert hident
    decide
  · have hrun : unitPasses ⟨⟨"a", [], "vector<b>"⟩, 1, {}⟩ (·.top.name == "Vector<b>") = true := by
      decide +kernel
    obtain ⟨g, u, haccepts, hu, hname⟩ := exists_of_unitPasses hrun
    have hident := hall .types "a = vector<b>;" _ initial g u (by decide +kernel) .refl haccepts hu
    rw [eq_of_beq hname] at hident
    revert hident
    decide
  · have hrun : unitPasses ⟨⟨"a", [⟨"_", "int32", 3⟩], "A"⟩, 1, {}⟩
        (·.top.innermost.members.any (·.name == "")) = true := by decide +kernel
    obtain ⟨g, u, haccepts, hu, hnames⟩ := exists_of_unitPasses hrun
    obtain ⟨m, hm, hname⟩ := List.any_eq_true.mp hnames
    have hident := hall .types "a _:int32 = A;" _ initial g u (by decide +kernel) .refl haccepts hu m hm
    rw [eq_of_beq hname] at hident
    revert hident
    decide

end TypeLang
