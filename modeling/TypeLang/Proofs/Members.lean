import TypeLang.Proofs.Casing
import TypeLang.Proofs.Layout
import TypeLang.Proofs.Lifecycle
import TypeLang.Proofs.Unions

/-! # Members of classes

The class of a declaration has a member for each field, beside the two that every class of its own
has. `SourceUnit.Presents` says what the unit of an admitted declaration looks like, whatever came
after the declaration (`exists_unit_of_type`, `exists_unit_of_function`), and `exists_groups` how the
members of its class are written. A member is named by the Pascal case of its field, which is compared
with the class but neither with the other fields nor with the two fixed members; so these clash
exactly if the Pascal case of a field does (`nodup_member_iff`). -/

namespace TypeLang

open Naming

/-- The members that every class with a name of its own has. -/
def fixedMembers : List String := ["DataType", "Extra"]

/-- The names of the members of a class, in the order in which they are written. -/
def ClassDef.memberNames (c : ClassDef) : List String :=
  (c.wireName.elim [] fun _ => fixedMembers) ++ c.members.map (·.name)

/-! ### Layout -/

namespace Source
open CodeLine

/-- The lines declare a member of the given name: comments and attributes, and then the
declaration. -/
def Declares (ls : List CodeLine) (name : String) : Prop :=
  ∃ above type value, ls = above ++
      [ofText ("public " ++ type ++ " " ++ name ++ " \x7b get; set; \x7d" ++ value)] ∧
    ∀ l ∈ above, l.text.toList.head? = some '/' ∨ l.text.toList.head? = some '['

theorem head?_of_mem_summary {d : Option String} {l : CodeLine} (h : l ∈ summary d) :
    l.text.toList.head? = some '/' := by
  cases d with
  | none => cases h
  | some text =>
    simp only [summary, List.mem_cons, List.not_mem_nil, or_false] at h
    rcases h with rfl | rfl | rfl <;> simp [ofText]

/-- A summary, attributes and a declaration. -/
theorem declares_of_attributes (d : Option String) (attributes : List String)
    (ha : ∀ a ∈ attributes, a.toList.head? = some '[') (type name value : String) :
    Declares (summary d ++ attributes.map ofText ++
      [ofText ("public " ++ type ++ " " ++ name ++ " \x7b get; set; \x7d" ++ value)]) name := by
  refine ⟨_, type, value, rfl, fun l hl => ?_⟩
  rcases List.mem_append.mp hl with hl | hl
  · exact .inl (head?_of_mem_summary hl)
  · obtain ⟨a, ha', rfl⟩ := List.mem_map.mp hl
    exact .inr (ha a ha')

theorem declares_memberLines (o : CodeOptions) (m : Member) : Declares (memberLines o m) m.name := by
  have h := declares_of_attributes m.description
    ["[JsonConverter(typeof(" ++ converter o m.encoding ++ "))]",
      "[JsonProperty(\"" ++ m.wireName ++ "\")]"] (by simp) m.type.text m.name ""
  simpa [memberLines] using h

/-- The two fixed members are two groups of lines. -/
theorem exists_wireMembers (wireName : String) :
    ∃ a b, wireMembers wireName = separated [a, b] ∧ Declares a "DataType" ∧ Declares b "Extra" := by
  refine ⟨_, _, rfl, ?_, ?_⟩
  · have h := declares_of_attributes (some "Data type for serialization")
      ["[JsonProperty(\"@type\")]"] (by simp) "override string" "DataType"
      (" = \"" ++ wireName ++ "\";")
    rw [← String.append_assoc, ← String.append_assoc] at h
    exact h
  · exact declares_of_attributes (some "Extra data attached to the message")
      ["[JsonProperty(\"@extra\")]"] (by simp) "override string" "Extra" ""

theorem separated_cons_separated (a b : List CodeLine) (groups : List (List CodeLine)) :
    separated (separated [a, b] :: groups) = separated (a :: b :: groups) := by
  cases groups <;> simp [separated, List.intercalate]

/-- The body of a class without nested classes is a row of groups, each of which declares one
member. -/
theorem exists_groups (o : CodeOptions) (top : Bool) {c : ClassDef} (hc : c.nested = []) :
    ∃ groups, classLines o top c = summary c.description ++
        braced (classHeader o top c.name c.parent) (separated groups) ∧
      List.Forall₂ Declares groups c.memberNames := by
  obtain ⟨name, description, parent, wireName, members, nested⟩ := c
  obtain rfl : nested = [] := hc
  have hmembers : List.Forall₂ Declares (members.map (memberLines o)) (members.map (·.name)) := by
    rw [List.forall₂_map_left_iff, List.forall₂_map_right_iff, List.forall₂_same]
    exact fun m _ => declares_memberLines o m
  cases wireName with
  | none =>
    refine ⟨members.map (memberLines o), ?_, hmembers⟩
    simp [classLines, nestedLines]
  | some n =>
    obtain ⟨a, b, hab, ha, hb⟩ := exists_wireMembers n
    refine ⟨a :: b :: members.map (memberLines o), ?_, .cons ha (.cons hb hmembers)⟩
    simp [classLines, nestedLines, hab, separated_cons_separated]

end Source

/-! ### Units of declarations -/

/-- The unit is that of a declaration: its class is named after `name`, has a member for each field,
and is nested in the class of the union, if there is one and it has other letters. -/
structure SourceUnit.Presents (u : SourceUnit) (name : String) (union : Option String)
    (fields : List String) : Prop where
  discriminator : u.discriminator? = some name
  className : u.top.innermost.name = pascal name
  members : u.top.innermost.members.map (·.name) = fields.map (member · (pascal name))
  nested : u.top.innermost.nested = []
  spine : u.top.spine =
    ((union.map pascal).filter (!sameLetters · (pascal name))).toList ++ [pascal name]

theorem Catalogue.presents_typeUnit (s : Catalogue) (e : TypeExpr) :
    (s.typeUnit e).Presents e.text ((s.entry e).base.map (·.text))
      ((s.entry e).fields.map (·.name)) := by
  have hmembers : (s.members (pascal e.text) (s.entry e).fields).map (·.name) =
      ((s.entry e).fields.map (·.name)).map (member · (pascal e.text)) := by
    simp [members]
  unfold typeUnit distinctBase?
  cases hb : (s.entry e).base with
  | none => exact ⟨rfl, rfl, hmembers, rfl, rfl⟩
  | some b =>
    simp only [Option.bind_some, Option.map_some]
    cases hsame : sameLetters (pascal b.text) (pascal e.text) with
    | true =>
      refine ⟨rfl, rfl, hmembers, rfl, ?_⟩
      simp [Option.filter, hsame, typeClass, ClassDef.spine]
    | false =>
      refine ⟨rfl, rfl, hmembers, rfl, ?_⟩
      simp [Option.filter, hsame, typeClass, ClassDef.spine]

theorem Catalogue.presents_functionUnit (s : Catalogue) (f : FunctionEntry) :
    (s.functionUnit f).Presents f.name none (f.arguments.map (·.name)) := by
  refine ⟨rfl, rfl, ?_, rfl, rfl⟩
  simp [functionUnit, members, ClassDef.innermost]

namespace Registry

/-- The unit of the type or function of a given name. -/
def unitFor? (g : Registry) (kind : Admission.Kind) (name : String) : Option SourceUnit :=
  match kind with
  | .types => (g.lookup? name).map g.typeUnit
  | .functions => (g.function? name).map g.functionUnit

end Registry

namespace Admission
open Registry
variable {kind : Kind} {decl : Declaration} {g g' g₂ : Registry}

/-- An admitted type declaration has a unit in every later registry, with the fields and the union of
the declaration. It is one of the units that are written, unless the type is generic. -/
theorem exists_unit_of_type (hg : g.Built) (h : Accepts .types decl g g') (hlater : Leads g' g₂) :
    ∃ s u, decl.shape? = some s ∧ (Clause.type s decl.docs.description?).Fits g.catalogue ∧
      g₂.unitFor? .types decl.name = some u ∧ (s.name.isGeneric = false → u ∈ g₂.unitsOf .object) ∧
      u.Presents s.name.text (some s.result.text) (decl.fields.map (·.name)) := by
  obtain ⟨s, hshape, hfits, hg', hcat⟩ := accepts_types hg.closed h
  obtain ⟨hg₂, hevolves⟩ := hlater.evolves hg'
  rw [hcat] at hevolves
  have hconcrete := Clause.isConcrete_type_self hg.settled.scalarsDeclared hfits
  have hentry := hevolves.entry_of_concrete hconcrete
  obtain ⟨id, hid⟩ := Option.isSome_iff_exists.mp
    (hevolves.holds (x := s.name) (.inr (.inl s.name.self_mem_parts)))
  have hlt := hg₂.toSound.lt_size_of_findExpr? hid
  have hexpr := hg₂.toSound.exprAt_of_findExpr? hid
  obtain ⟨hname, hfields, -⟩ := Declaration.shape?_eq_some_iff.mp hshape
  refine ⟨s, g₂.typeUnit id, hshape, hfits, ?_, fun hplain => ?_, ?_⟩
  · rw [unitFor?, lookup?_of_parse? hname, hid, Option.map_some]
  · have hunit : g₂.hasUnit id = true := by
      rw [Entry.isConcrete, ← hentry, Bool.and_eq_true] at hconcrete
      have hunion : (g₂.catalogue.entry s.name).isUnion = false := by
        rw [hentry]
        exact (Catalogue.Grouped.apply_declared hfits).1
      rw [hasUnit_exprAt hg₂ hlt, hexpr, Catalogue.hasUnit, hconcrete.2, hplain, hunion]
      rfl
    rw [unitsOf_object]
    exact List.mem_map_of_mem (List.mem_filter.mpr ⟨List.mem_range.mpr hlt, hunit⟩)
  · rw [typeUnit_exprAt hg₂ hlt, hexpr]
    have hpresents := g₂.catalogue.presents_typeUnit s.name
    rw [hentry] at hpresents
    simp only [Clause.apply, Catalogue.modify, Catalogue.hold, if_pos, names_of_shapes hfields]
      at hpresents
    exact hpresents

/-- An admitted function declaration has a unit in every later registry, with the arguments of the
declaration. -/
theorem exists_unit_of_function (hg : g.Built) (h : Accepts .functions decl g g')
    (hlater : Leads g' g₂) :
    ∃ u, g₂.unitFor? .functions decl.name = some u ∧ u ∈ g₂.unitsOf .function ∧
      u.Presents decl.name none (decl.fields.map (·.name)) := by
  obtain ⟨s, hshape, hg', hcat⟩ := accepts_functions hg.closed h
  obtain ⟨hg₂, hevolves⟩ := hlater.evolves hg'
  have hbuilt : g₂.Built := .trans
    (hg.tail ⟨.functions, .declaration decl, (after_of_ok (run_addItem_of_accepts h)).symm⟩) hlater
  rw [hcat] at hevolves
  have hthere : (⟨decl.name, decl.docs.description?, s.fields, s.result⟩ : FunctionEntry) ∈
      g₂.catalogue.functions := by
    refine hevolves.functions ?_
    show _ ∈ (_ : FunctionEntry) ::ₘ g.catalogue.functions
    exact Multiset.mem_cons_self _ _
  obtain ⟨f, hf, hentry⟩ := List.mem_map.mp (Multiset.mem_coe.mp hthere)
  have hmem := Array.mem_toList_iff.mp hf
  obtain ⟨-, hfields, -⟩ := Declaration.shape?_eq_some_iff.mp hshape
  refine ⟨g₂.functionUnit f, ?_, ?_, ?_⟩
  · have hname : f.name = decl.name := congrArg FunctionEntry.name hentry
    rw [unitFor?, hbuilt.reachable.sound.filed.function?_eq_some_iff.mpr ⟨hmem, hname⟩, Option.map_some]
  · rw [unitsOf_function]
    exact List.mem_map_of_mem hf
  · rw [functionUnit_functionEntry hg₂ hmem, hentry, ← names_of_shapes hfields]
    exact g₂.catalogue.presents_functionUnit _

end Admission

/-! ### Clashes -/

/-- Members clash exactly if the Pascal case of their fields does, or is the name of a fixed member
and not of the class. -/
theorem nodup_member_iff (fields : List String) (className : String) :
    (fixedMembers ++ fields.map (member · className)).Nodup ↔
      (fields.map pascal).Nodup ∧
        ∀ f ∈ fields, pascal f ∈ fixedMembers → sameLetters (pascal f) className = true := by
  have hfixed : fixedMembers.Nodup := by decide
  have hplain : ∀ x ∈ fixedMembers, '_' ∉ x.toList := by decide
  have hfields : (fields.map (member · className)).Nodup ↔ (fields.map pascal).Nodup := by
    simp only [List.Nodup, List.pairwise_map]
    exact List.Pairwise.iff fun a b => not_congr member_eq_iff
  rw [List.nodup_append, hfields]
  constructor
  · rintro ⟨-, hnodup, hapart⟩
    refine ⟨hnodup, fun f hf hmem => ?_⟩
    by_contra hne
    rw [Bool.not_eq_true] at hne
    exact hapart _ hmem _ (List.mem_map_of_mem hf)
      ((member_eq_iff_of_not_mem (hplain _ hmem)).mpr ⟨rfl, hne⟩).symm
  · rintro ⟨hnodup, hsame⟩
    refine ⟨hfixed, hnodup, fun x hx y hy heq => ?_⟩
    obtain ⟨f, hf, rfl⟩ := List.mem_map.mp hy
    obtain ⟨rfl, hne⟩ := (member_eq_iff_of_not_mem (hplain x hx)).mp heq.symm
    rw [hsame f hf hx] at hne
    cases hne

namespace SourceUnit.Presents
variable {u : SourceUnit} {name : String} {union : Option String} {fields : List String}

theorem memberNames (h : u.Presents name union fields) :
    u.top.innermost.memberNames = fixedMembers ++ fields.map (member · u.top.innermost.name) := by
  have hwire : u.top.innermost.wireName = some name := h.discriminator
  rw [ClassDef.memberNames, hwire, h.members, h.className, Option.elim_some]

theorem nodup_memberNames_iff (h : u.Presents name union fields) :
    u.top.innermost.memberNames.Nodup ↔ (fields.map pascal).Nodup ∧ ∀ f ∈ fields,
      pascal f ∈ fixedMembers → sameLetters (pascal f) u.top.innermost.name = true := by
  rw [h.memberNames, nodup_member_iff]

theorem sameLetters_member (h : u.Presents name union fields) {m : Member}
    (hm : m ∈ u.top.innermost.members) : sameLetters m.name u.top.innermost.name = false := by
  have hname : m.name ∈ u.top.innermost.members.map (·.name) := List.mem_map_of_mem hm
  rw [h.members] at hname
  obtain ⟨f, -, hf⟩ := List.mem_map.mp hname
  rw [h.className, ← hf]
  exact Naming.sameLetters_member (underscore_not_mem_pascal name) f

end SourceUnit.Presents

open Registry Admission

theorem exists_presented {kind : Kind} {decl : Declaration} {g g' g₂ : Registry} (hg : g.Built)
    (h : Accepts kind decl g g') (hlater : Leads g' g₂) :
    ∃ u, g₂.unitFor? kind decl.name = some u ∧
      ((∀ e, kind = .types → TypeExpr.parse? decl.name = some e → e.isGeneric = false) →
        u ∈ g₂.unitsOf kind.unit) ∧
      ∃ name union, u.Presents name union (decl.fields.map (·.name)) := by
  cases kind with
  | types =>
    obtain ⟨s, u, hshape, -, hu, hmem, hpresents⟩ := exists_unit_of_type hg h hlater
    exact ⟨u, hu, fun hplain => hmem (hplain _ rfl (Declaration.shape?_eq_some_iff.mp hshape).1),
      _, _, hpresents⟩
  | functions =>
    obtain ⟨u, hu, hmem, hpresents⟩ := exists_unit_of_function hg h hlater
    exact ⟨u, hu, fun _ => hmem, _, _, hpresents⟩

/-- The class of an admitted declaration is written with the two fixed members and one for each field,
in this order, and no member of a field has the letters of the class. The names are distinct exactly
if the fields are distinct in Pascal case and none of them is then a fixed member, unless the class
has this name as well. The unit is one of those that are written, unless it is that of a generic
type. -/
theorem members_distinct_iff {kind : Kind} {decl : Declaration} {g g' g₂ : Registry} (hg : g.Built)
    (h : Accepts kind decl g g') (hlater : Leads g' g₂) :
    ∃ u, g₂.unitFor? kind decl.name = some u ∧
      ((∀ e, kind = .types → TypeExpr.parse? decl.name = some e → e.isGeneric = false) →
        u ∈ g₂.unitsOf kind.unit) ∧
      let c := u.top.innermost
      c.memberNames =
        "DataType" :: "Extra" :: decl.fields.map (fun f => member f.name c.name) ∧
      (∀ o top, (∀ w : CodeWriter, w.classDef o top c = w.wrote (Source.classLines o top c)) ∧
        ∃ groups, Source.classLines o top c = Source.summary c.description ++
          CodeLine.braced (Source.classHeader o top c.name c.parent) (CodeLine.separated groups) ∧
        List.Forall₂ Source.Declares groups c.memberNames) ∧
      (c.memberNames.Nodup ↔ (decl.fields.map fun f => pascal f.name).Nodup ∧
        ∀ f ∈ decl.fields, pascal f.name = "DataType" ∨ pascal f.name = "Extra" →
          sameLetters (pascal f.name) c.name = true) ∧
      ∀ m ∈ c.members, sameLetters m.name c.name = false := by
  obtain ⟨u, hu, hmem, name, union, hpresents⟩ := exists_presented hg h hlater
  refine ⟨u, hu, hmem, ?_, fun o top => ⟨fun w => w.classDef_eq o top _, ?_⟩, ?_,
    fun m hm => hpresents.sameLetters_member hm⟩
  · simp only [hpresents.memberNames, fixedMembers, List.cons_append, List.nil_append, List.map_map,
      Function.comp_def]
  · exact Source.exists_groups o top hpresents.nested
  · simp only [hpresents.nodup_memberNames_iff, fixedMembers, List.mem_cons, List.not_mem_nil, or_false,
      List.map_map, List.forall_mem_map, Function.comp_def]

/-- Whether the first registry admits the type declaration with a unit that passes the test. -/
def Admission.unitPasses (decl : Declaration) (test : SourceUnit → Bool) : Bool :=
  match (addType decl).run initial with
  | .ok (some _) g => (g.unitFor? .types decl.name).any test
  | _ => false

theorem Admission.exists_of_unitPasses {decl : Declaration} {test : SourceUnit → Bool}
    (h : unitPasses decl test = true) :
    ∃ g u, Accepts .types decl initial g ∧ g.unitFor? .types decl.name = some u ∧ test u = true := by
  unfold unitPasses at h
  split at h
  · next id g hrun =>
    cases hu : g.unitFor? .types decl.name with
    | none => rw [hu] at h; cases h
    | some u =>
      rw [hu] at h
      exact ⟨g, u, ⟨id, hrun⟩, hu, h⟩
  · cases h

/-- A class with the name of a fixed member, and a field with the name of the class. -/
def dataType : Declaration where
  name := "data_type"
  fields := [⟨"data_type", "string", 11⟩, ⟨"extra_id", "int53", 28⟩]
  result := "Entity"
  line := 1
  docs := {}

theorem members_distinct_iff_suffixed :
    ∃ g u, Accepts .types dataType initial g ∧ g.unitFor? .types "data_type" = some u ∧
      u.top.innermost.memberNames = ["DataType", "Extra", "DataType_", "ExtraId"] ∧
      u.top.innermost.memberNames.Nodup := by
  have hrun : unitPasses dataType (·.top.innermost.name == "DataType") = true := by decide +kernel
  obtain ⟨g, v, haccepts, hv, hname⟩ := exists_of_unitPasses hrun
  obtain ⟨u, hu, -, hnames, -, hnodup, -⟩ := members_distinct_iff .refl haccepts .refl
  obtain rfl : v = u := Option.some.inj (hv.symm.trans hu)
  rw [eq_of_beq hname] at hnames hnodup
  refine ⟨g, v, haccepts, hu, ?_, hnodup.mpr ⟨by decide +kernel, by decide +kernel⟩⟩
  rw [hnames]
  decide +kernel

/-- Two fields with different names share a member if they differ in underscores only, and a field may
take the name of a fixed member. -/
theorem members_clash :
    (¬ ∀ (kind : Kind) (text : String) (decl : Declaration) (g g' : Registry) (u : SourceUnit),
      Signature.parse text = .ok decl.toSignature → (decl.fields.map (·.name)).Nodup →
      g.Built → Accepts kind decl g g' → g'.unitFor? kind decl.name = some u →
      (u.top.innermost.members.map (·.name)).Nodup) ∧
    (¬ ∀ (kind : Kind) (text : String) (decl : Declaration) (g g' : Registry) (u : SourceUnit),
      Signature.parse text = .ok decl.toSignature → (decl.fields.map (·.name)).Nodup →
      g.Built → Accepts kind decl g g' → g'.unitFor? kind decl.name = some u →
      ∀ m ∈ u.top.innermost.members, m.name ∉ ["DataType", "Extra"]) := by
  refine ⟨fun hall => ?_, fun hall => ?_⟩
  · have hrun : unitPasses
        ⟨⟨"chat", [⟨"foo_bar", "string", 6⟩, ⟨"fooBar", "string", 21⟩], "Chat"⟩, 1, {}⟩
        (·.top.innermost.members.map (·.name) = ["FooBar", "FooBar"]) = true := by decide +kernel
    obtain ⟨g, u, haccepts, hu, hnames⟩ := exists_of_unitPasses hrun
    have hnodup := hall .types "chat foo_bar:string fooBar:string = Chat;" _ initial g u
      (by decide +kernel) (by decide) .refl haccepts hu
    rw [of_decide_eq_true hnames] at hnodup
    revert hnodup
    decide
  · have hrun : unitPasses ⟨⟨"chat", [⟨"extra", "string", 6⟩], "Chat"⟩, 1, {}⟩
        (·.top.innermost.members.any (·.name == "Extra")) = true := by decide +kernel
    obtain ⟨g, u, haccepts, hu, hnames⟩ := exists_of_unitPasses hrun
    obtain ⟨m, hm, hname⟩ := List.any_eq_true.mp hnames
    refine hall .types "chat extra:string = Chat;" _ initial g u
      (by decide +kernel) (by decide) .refl haccepts hu m hm ?_
    rw [eq_of_beq hname]
    decide

end TypeLang
