import TypeLang.Proofs.Built
import TypeLang.Proofs.Units

/-! # References and the classes they name

A reference in generated code is spelled by `codeType`, the class that it means is laid out by
`typeUnit`, and the two meet in the leaf of the type. The leaf is a scalar, a type with a unit, whose
dotted name the reference spells (`text_leafCodeType`), or a union. A union has no unit, and as it
belongs to no other union its class stands alone (`distinctBase?_of_isUnion`). -/

namespace TypeLang

open Naming

/-- The types that the class of a unit refers to: those of its members, and the result of a
function. -/
def SourceUnit.references (u : SourceUnit) : List CodeType :=
  u.top.innermost.members.map (·.type) ++
    match u.top.innermost.parent with
    | .function result => [result]
    | _ => []

namespace Registry
variable {g : Registry} {id : TypeId}

/-! ### Units -/

theorem mem_units_iff {u : SourceUnit} : u ∈ g.units ↔
    (∃ id < g.size, g.hasUnit id = true ∧ u = g.typeUnit id) ∨
      ∃ f ∈ g.functions, u = g.functionUnit f := by
  simp only [units, List.mem_append, List.mem_map, List.mem_filter, List.mem_range,
    Array.mem_toList_iff, and_assoc, eq_comm]

theorem innermost_typeUnit (g : Registry) (id : TypeId) :
    (g.typeUnit id).top.innermost = g.typeClass (g.get id)
      ((g.distinctBase? (g.get id)).elim .root fun base => .union (pascal base.name)) := by
  simp only [typeUnit]
  cases g.distinctBase? (g.get id) <;> rfl

theorem references_typeUnit (g : Registry) (id : TypeId) :
    (g.typeUnit id).references = (g.get id).fields.map fun f => g.codeType f.type := by
  rw [SourceUnit.references, innermost_typeUnit]
  cases g.distinctBase? (g.get id) <;> simp [typeClass, members]

theorem references_functionUnit (g : Registry) (f : FunctionRecord) :
    (g.functionUnit f).references =
      (f.arguments.map fun a => g.codeType a.type) ++ [g.codeType f.result] := by
  simp [SourceUnit.references, functionUnit, ClassDef.innermost, members]

/-! ### Leaves -/

theorem leaf_leafCodeType (g : Registry) (r : TypeRecord) :
    (g.leafCodeType r).leaf = g.leafCodeType r := by
  unfold leafCodeType
  cases r.scalar <;> rfl

theorem leaf_codeType (hg : g.Sound) (id : TypeId) :
    (g.codeType id).leaf = g.leafCodeType (g.get (g.leaf id).1) := by
  fun_induction leaf g id with
  | case1 id arg harg hlt l depth hleaf ih =>
    rw [hleaf] at ih
    rw [codeType, harg]
    simp only [hlt, ↓reduceIte]
    exact ih
  | case2 id arg harg hlt => exact absurd (hg.older id arg harg) hlt
  | case3 id hnone =>
    rw [codeType, hnone]
    exact leaf_leafCodeType g _

/-- A type that is no scalar is spelled as its unit is named. -/
theorem text_leafCodeType (h : (g.get id).scalar = none) :
    (g.leafCodeType (g.get id)).text = (g.typeUnit id).qualifiedName := by
  simp only [leafCodeType, typeUnit, h]
  cases g.distinctBase? (g.get id) with
  | none => simp [CodeType.text, SourceUnit.qualifiedName, typeClass, ClassDef.spine]
  | some base => simp [CodeType.text, SourceUnit.qualifiedName, typeClass, ClassDef.spine]

theorem distinctBase?_of_isUnion (hg : g.Built) (hid : id < g.size)
    (hu : (g.get id).isUnion = true) : g.distinctBase? (g.get id) = none := by
  have hentry : g.catalogue.entry (g.exprAt id) = g.entryOf (g.get id) :=
    entry_exprAt hg.closed.toSound hid
  have hbase := hg.settled.base (g.exprAt id)
  rw [hentry] at hbase
  cases hb : (g.get id).base with
  | none => rw [distinctBase?, hb, Option.bind_none]
  | some b =>
    have hnot := (hbase (by rw [entryOf, hb]; rfl)).2
    rw [entryOf, hu] at hnot
    cases hnot

/-! ### Agreement -/

/-- `t` spells the type at a place and names the class of its leaf. -/
structure Agrees (g : Registry) (t : CodeType) (id : TypeId) : Prop where
  spelled : t = g.codeType id
  leaf : (∃ s, t.leaf = .scalar s) ∨
    (g.hasUnit (g.leaf id).1 = true ∧ g.typeUnit (g.leaf id).1 ∈ g.units ∧
      t.leaf.text = (g.typeUnit (g.leaf id).1).qualifiedName) ∨
    ((g.get (g.leaf id).1).isUnion = true ∧
      t.leaf = .named none (pascal (g.get (g.leaf id).1).name))

theorem agrees_codeType (hg : g.Built) (hid : id < g.size) : g.Agrees (g.codeType id) id := by
  have hsound := hg.closed.toSound
  have hlt : (g.leaf id).1 < g.size := Nat.lt_of_le_of_lt (leaf_le g id) hid
  have hleaf := leaf_codeType hsound id
  refine ⟨rfl, ?_⟩
  rw [hleaf]
  cases hs : (g.get (g.leaf id).1).scalar with
  | some s =>
    left
    exact ⟨s, by rw [leafCodeType, hs]⟩
  | none =>
    right
    cases hu : (g.get (g.leaf id).1).isUnion with
    | true =>
      right
      refine ⟨rfl, ?_⟩
      rw [leafCodeType, hs, distinctBase?_of_isUnion hg hlt hu]
      rfl
    | false =>
      left
      have hunit : g.hasUnit (g.leaf id).1 = true := by
        simp [hasUnit, hs, hu, argument_leaf hsound hid]
      exact ⟨hunit, mem_units_iff.mpr (.inl ⟨_, hlt, hunit, rfl⟩), text_leafCodeType hs⟩

theorem agrees_all (hg : g.Built) {fs : List Field} (hfs : ∀ f ∈ fs, f.type < g.size) :
    List.Forall₂ g.Agrees (fs.map fun f => g.codeType f.type) (fs.map (·.type)) := by
  rw [List.forall₂_map_left_iff, List.forall₂_map_right_iff, List.forall₂_same]
  intro f hf
  exact agrees_codeType hg (hfs f hf)

/-- The type under all arguments is declared. -/
def LeafDeclared (g : Registry) (id : TypeId) : Prop := (g.get (g.leaf id).1).isDeclared = true

theorem leafDeclared_of_undeclaredField? {owner : String} {f : Field}
    (h : g.undeclaredField? owner f = none) (hunit : g.hasUnit (g.leaf f.type).1 = true) :
    g.LeafDeclared f.type := by
  simp only [undeclaredField?] at h
  split at h
  next hknown =>
    simp only [hasUnit, Bool.and_eq_true, Bool.not_eq_true'] at hunit
    rw [hunit.2, Bool.or_false] at hknown
    exact hknown
  next => cases h

theorem text_codeType (hunit : g.hasUnit id = true) :
    (g.codeType id).text = (g.typeUnit id).qualifiedName := by
  simp only [hasUnit, Bool.and_eq_true, Option.isNone_iff_eq_none] at hunit
  rw [codeType, hunit.1.2]
  exact text_leafCodeType hunit.1.1

end Registry

open Registry

/-- Every reference of a unit agrees with the type of its field, or with the result; once
verification has passed, a member that names a unit names that of a declared type; and a type with a
unit is spelled as its unit is named. -/
theorem references_agree (calls : List Call) :
    let c := Compilation.ofCalls calls
    let g := c.registry
    (∀ u ∈ g.units,
      (∃ id < g.size, g.hasUnit id = true ∧ u = g.typeUnit id ∧
        List.Forall₂ g.Agrees u.references ((g.get id).fields.map (·.type))) ∨
      ∃ f ∈ g.functions, u = g.functionUnit f ∧
        List.Forall₂ g.Agrees u.references (f.arguments.map (·.type) ++ [f.result])) ∧
    (∀ o d, o.strict = true → (Compile.verify o).run c = .ok () d →
      (∀ id < g.size, ∀ f ∈ (g.get id).fields,
        g.hasUnit (g.leaf f.type).1 = true → g.LeafDeclared f.type) ∧
      ∀ f ∈ g.functions, ∀ a ∈ f.arguments,
        g.hasUnit (g.leaf a.type).1 = true → g.LeafDeclared a.type) ∧
    ∀ id < g.size, g.hasUnit id = true → (g.codeType id).text = (g.typeUnit id).qualifiedName := by
  intro c g
  have hg : g.Built := built_ofCalls calls
  have hclosed := hg.closed
  refine ⟨fun u hu => ?_, fun o d ho hverify => ?_, fun id _ hunit => ?_⟩
  · rcases mem_units_iff.mp hu with ⟨id, hid, hunit, rfl⟩ | ⟨f, hf, rfl⟩
    · left
      refine ⟨id, hid, hunit, rfl, ?_⟩
      rw [references_typeUnit]
      exact agrees_all hg (hclosed.field_lt id)
    · right
      refine ⟨f, hf, rfl, ?_⟩
      rw [references_functionUnit]
      exact List.rel_append (agrees_all hg (hclosed.argument_lt f hf))
        (.cons (agrees_codeType hg (hclosed.result_lt f hf)) .nil)
  · obtain ⟨hnil, -⟩ := (Compile.run_verify_strict_eq_ok ho).mp hverify
    rw [undeclared, List.append_eq_nil_iff] at hnil
    simp only [List.flatMap_eq_nil_iff, List.filterMap_eq_nil_iff] at hnil
    refine ⟨fun id hid f hf => ?_, fun f hf a ha => ?_⟩
    · exact leafDeclared_of_undeclaredField? (hnil.1 _ (mem_records_iff.mpr ⟨id, hid, rfl⟩) f hf)
    · exact leafDeclared_of_undeclaredField? (hnil.2 f (Array.mem_toList_iff.mpr hf) a ha)
  · exact text_codeType hunit

/-- A type that holds a sequence of itself. -/
def chain : List Call := [⟨{}, .types, "types", "link next:vector<link> = Chain;"⟩]

theorem references_agree_chain :
    let c := Compilation.ofCalls chain
    let g := c.registry
    (g.typeUnit 7 ∈ g.units ∧
      (g.typeUnit 7).references = [.sequence (.named (some "Chain") "Link")] ∧
      ∃ ids, List.Forall₂ g.Agrees (g.typeUnit 7).references ids) ∧
    (Compile.verify {}).run c = .ok () c ∧
    ((g.get 7).fields.map (·.type) = [8] ∧ g.hasUnit (g.leaf 8).1 = true ∧ g.LeafDeclared 8) := by
  intro c g
  have hrun : (7 < g.size ∧ g.hasUnit 7 = true) ∧
      (g.typeUnit 7).references = [.sequence (.named (some "Chain") "Link")] ∧
      (g.get 7).fields.map (·.type) = [8] ∧ g.hasUnit (g.leaf 8).1 = true ∧ g.undeclared = [] := by
    decide +kernel
  obtain ⟨⟨hsize, hunit⟩, hrefs, hfields, hleaf, hnone⟩ := hrun
  have hmem : g.typeUnit 7 ∈ g.units := mem_units_iff.mpr (.inl ⟨7, hsize, hunit, rfl⟩)
  have hverify : (Compile.verify {}).run c = .ok () c :=
    (Compile.run_verify_strict_eq_ok rfl).mpr ⟨hnone, rfl⟩
  obtain ⟨hagree, hdeclared, -⟩ := references_agree chain
  have hids : ∃ ids, List.Forall₂ g.Agrees (g.typeUnit 7).references ids := by
    rcases hagree _ hmem with ⟨_, _, _, _, hall⟩ | ⟨_, _, _, hall⟩
    · exact ⟨_, hall⟩
    · exact ⟨_, hall⟩
  obtain ⟨f, hf, hid⟩ : ∃ f ∈ (g.get 7).fields, f.type = 8 :=
    List.mem_map.mp (by rw [hfields]; exact List.mem_singleton_self 8)
  refine ⟨⟨hmem, hrefs, hids⟩, hverify, hfields, hleaf, ?_⟩
  rw [← hid] at hleaf ⊢
  exact (hdeclared {} c rfl hverify).1 7 hsize f hf hleaf

end TypeLang
