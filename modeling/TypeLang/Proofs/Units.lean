import Mathlib.Data.List.Perm.Lattice
import TypeLang.Proofs.Verified
import TypeLang.Source.Emission

/-! # Units of a catalogue

The units of a registry depend on its catalogue alone. Every step of the emission is done once more
on catalogues, where a type is an expression and a sequence is told from its form, and agrees with
the emission from places in a closed registry (`codeType_exprAt`, `typeUnit_exprAt`,
`functionUnit_functionEntry`). Hence registries with the same catalogue have the same units, in
some order: `units_perm`. -/

namespace TypeLang

open Naming

namespace Catalogue

/-- The union of a type, if its class has another name. -/
def distinctBase? (s : Catalogue) (e : TypeExpr) : Option TypeExpr :=
  (s.entry e).base.bind fun b =>
    if sameLetters (pascal b.text) (pascal e.text) then none else some b

/-- The spelling of a type that has no argument. -/
def leafCodeType (s : Catalogue) (e : TypeExpr) : CodeType :=
  match (s.entry e).scalar with
  | some c => .scalar c
  | none => .named ((s.distinctBase? e).map fun b => pascal b.text) (pascal e.text)

/-- The spelling of a type. -/
def codeType (s : Catalogue) : TypeExpr → CodeType
  | .name n => s.leafCodeType (.name n)
  | .generic _ a => .sequence (s.codeType a)

/-- The members of a class for its fields. -/
def members (s : Catalogue) (className : String) (fields : List FieldShape) : List Member :=
  fields.map fun f =>
    ⟨member f.name className, f.name, f.description, s.codeType f.type, (s.codeType f.type).encoding⟩

/-- Whether a type has a unit of its own. -/
def hasUnit (s : Catalogue) (e : TypeExpr) : Bool :=
  (s.entry e).scalar.isNone && !e.isGeneric && !(s.entry e).isUnion

/-- The class of a type, which extends `parent`. -/
def typeClass (s : Catalogue) (e : TypeExpr) (parent : Parent) : ClassDef :=
  ⟨pascal e.text, (s.entry e).description, parent, some e.text,
    s.members (pascal e.text) (s.entry e).fields, []⟩

/-- The unit of a type. -/
def typeUnit (s : Catalogue) (e : TypeExpr) : SourceUnit :=
  ⟨.object, capitalize e.text,
    match s.distinctBase? e with
    | some b =>
      ⟨pascal b.text, (s.entry b).description, .root, none, [],
        [s.typeClass e (.union (pascal b.text))]⟩
    | none => s.typeClass e .root⟩

/-- The unit of a function. -/
def functionUnit (s : Catalogue) (f : FunctionEntry) : SourceUnit :=
  ⟨.function, capitalize f.name, ⟨pascal f.name, f.description, .function (s.codeType f.result),
    some f.name, s.members (pascal f.name) f.arguments, []⟩⟩

end Catalogue

namespace Registry
variable {g g' : Registry} {id : TypeId}

/-! ### Emission by places and by expressions -/

theorem distinctBase?_cases (hg : g.Closed) (hid : id < g.size) :
    (g.distinctBase? (g.get id) = none ∧ g.catalogue.distinctBase? (g.exprAt id) = none) ∨
      ∃ b < g.size, g.distinctBase? (g.get id) = some (g.get b) ∧
        g.catalogue.distinctBase? (g.exprAt id) = some (g.exprAt b) := by
  have hentry : g.catalogue.entry (g.exprAt id) = _ := entry_exprAt hg.toSound hid
  rw [distinctBase?, Catalogue.distinctBase?, hentry, entryOf]
  cases hb : (g.get id).base with
  | none => exact .inl ⟨rfl, rfl⟩
  | some b =>
    simp only [Option.map_some, Option.bind_some, hg.toSound.name_get]
    split
    · exact .inl ⟨rfl, rfl⟩
    · exact .inr ⟨b, hg.base_lt id b hb, rfl, rfl⟩

theorem leafCodeType_exprAt (hg : g.Closed) (hid : id < g.size) :
    g.leafCodeType (g.get id) = g.catalogue.leafCodeType (g.exprAt id) := by
  have hentry : g.catalogue.entry (g.exprAt id) = _ := entry_exprAt hg.toSound hid
  rw [leafCodeType, Catalogue.leafCodeType, hentry, entryOf]
  cases (g.get id).scalar with
  | some c => rfl
  | none =>
    simp only [hg.toSound.name_get]
    rcases distinctBase?_cases hg hid with ⟨h, h'⟩ | ⟨b, -, h, h'⟩ <;> rw [h, h']
    · rfl
    · rw [Option.map_some, Option.map_some, hg.toSound.name_get]

theorem codeType_exprAt (hg : g.Closed) (hid : id < g.size) :
    g.codeType id = g.catalogue.codeType (g.exprAt id) := by
  induction id using Nat.strongRecOn with
  | ind id ih =>
    rw [codeType]
    cases ha : (g.get id).argument with
    | none =>
      simp only
      rw [leafCodeType_exprAt hg hid, exprAt_of_none ha]
      rfl
    | some arg =>
      have hlt := hg.older id arg ha
      simp only [hlt, ↓reduceIte]
      rw [hg.exprAt_of_some ha, ih arg hlt (Nat.lt_trans hlt hid)]
      rfl

theorem members_fieldShape (hg : g.Closed) {fs : List Field} (hfs : ∀ f ∈ fs, f.type < g.size)
    (className : String) :
    g.members className fs = g.catalogue.members className (fs.map g.fieldShape) := by
  rw [members, Catalogue.members, List.map_map]
  refine List.map_congr_left fun f hf => ?_
  simp only [Function.comp_apply, codeType_exprAt hg (hfs f hf), fieldShape]

theorem hasUnit_exprAt (hg : g.Closed) (hid : id < g.size) :
    g.hasUnit id = g.catalogue.hasUnit (g.exprAt id) := by
  have hentry : g.catalogue.entry (g.exprAt id) = _ := entry_exprAt hg.toSound hid
  rw [hasUnit, Catalogue.hasUnit, hentry, isNone_argument hg.toSound (hg.findExpr?_exprAt hid)]
  rfl

theorem typeClass_exprAt (hg : g.Closed) (hid : id < g.size) (parent : Parent) :
    g.typeClass (g.get id) parent = g.catalogue.typeClass (g.exprAt id) parent := by
  have hentry : g.catalogue.entry (g.exprAt id) = _ := entry_exprAt hg.toSound hid
  rw [typeClass, Catalogue.typeClass, hentry, hg.toSound.name_get,
    members_fieldShape hg (hg.field_lt id)]
  rfl

theorem typeUnit_exprAt (hg : g.Closed) (hid : id < g.size) :
    g.typeUnit id = g.catalogue.typeUnit (g.exprAt id) := by
  rw [typeUnit, Catalogue.typeUnit]
  rcases distinctBase?_cases hg hid with ⟨h, h'⟩ | ⟨b, hb, h, h'⟩
  · simp only [h, h', typeClass_exprAt hg hid, hg.toSound.name_get]
  · have hentry : g.catalogue.entry (g.exprAt b) = _ := entry_exprAt hg.toSound hb
    simp only [h, h', typeClass_exprAt hg hid, hg.toSound.name_get, hentry]
    rfl

theorem functionUnit_functionEntry (hg : g.Closed) {f : FunctionRecord} (hf : f ∈ g.functions) :
    g.functionUnit f = g.catalogue.functionUnit (g.functionEntry f) := by
  rw [functionUnit, Catalogue.functionUnit, members_fieldShape hg (hg.argument_lt f hf),
    codeType_exprAt hg (hg.result_lt f hf)]
  rfl

/-! ### All units -/

/-- The types that have a record, in the order of the registry. -/
def exprs (g : Registry) : List TypeExpr := (List.range g.size).map g.exprAt

theorem nodup_exprs (hg : g.Sound) : g.exprs.Nodup := by
  refine List.Nodup.map_on (fun i hi j hj h => ?_) List.nodup_range
  exact hg.exprAt_inj (List.mem_range.mp hi) (List.mem_range.mp hj) h

theorem mem_exprs_iff (hg : g.Sound) {e : TypeExpr} : e ∈ g.exprs ↔ g.catalogue.Holds e := by
  rw [exprs, List.mem_map]
  constructor
  · rintro ⟨id, hid, rfl⟩
    show (g.findExpr? (g.exprAt id)).isSome = true
    rw [hg.findExpr?_exprAt (List.mem_range.mp hid)]
    rfl
  · intro h
    obtain ⟨id, hid⟩ := Option.isSome_iff_exists.mp h
    exact ⟨id, List.mem_range.mpr (hg.lt_size_of_findExpr? hid), hg.exprAt_of_findExpr? hid⟩

theorem units_eq (hg : g.Closed) :
    g.units = (g.exprs.filter g.catalogue.hasUnit).map g.catalogue.typeUnit ++
      (g.functions.toList.map g.functionEntry).map g.catalogue.functionUnit := by
  rw [units, exprs, List.filter_map, List.map_map, List.map_map]
  have hfilter : (List.range g.size).filter (g.catalogue.hasUnit ∘ g.exprAt) =
      (List.range g.size).filter g.hasUnit :=
    List.filter_congr fun id hid => (hasUnit_exprAt hg (List.mem_range.mp hid)).symm
  rw [hfilter]
  congr 1
  · exact List.map_congr_left fun id hid =>
      typeUnit_exprAt hg (List.mem_range.mp (List.mem_filter.mp hid).1)
  · exact List.map_congr_left fun f hf =>
      functionUnit_functionEntry hg (Array.mem_toList_iff.mp hf)

/-- Registries with the same catalogue have the same units, in some order. -/
theorem units_perm (hg : g.Closed) (hg' : g'.Closed) (h : g.catalogue = g'.catalogue) :
    g.units.Perm g'.units := by
  have hexprs : g.exprs.Perm g'.exprs :=
    (List.perm_ext_iff_of_nodup (nodup_exprs hg.toSound) (nodup_exprs hg'.toSound)).mpr fun e => by
      rw [mem_exprs_iff hg.toSound, mem_exprs_iff hg'.toSound, h]
  have hfunctions : (g.functions.toList.map g.functionEntry).Perm
      (g'.functions.toList.map g'.functionEntry) :=
    Multiset.coe_eq_coe.mp (congrArg Catalogue.functions h)
  rw [units_eq hg, units_eq hg', h]
  exact ((hexprs.filter _).map _).append (hfunctions.map _)

end Registry

end TypeLang
