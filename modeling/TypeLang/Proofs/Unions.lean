import TypeLang.Proofs.Built
import TypeLang.Proofs.Verified

/-! # Unions and their members

`Grouped s`: a type with a declaration of its own is no union and belongs to itself or to a union,
and a type without one has neither fields nor a base. Every clause that fits keeps this
(`Grouped.apply`): declarations are final, so only the type that is declared has to be looked at. In a
registry that items alone have made, the members of the unions are therefore the declared types that
do not belong to themselves, each in one union (`members_partition`). -/

namespace TypeLang

open Registry

namespace Catalogue
variable {s : Catalogue} {k : Clause} {x : TypeExpr}

/-- What is a union stays one. -/
theorem isUnion_entry_apply (k : Clause) (h : (s.entry x).isUnion = true) :
    ((k.apply s).entry x).isUnion = true := by
  cases k with
  | skip => exact h
  | type a d =>
    simp only [Clause.apply, modify, hold]
    split
    · exact h
    · split
      · rfl
      · exact h
  | function n a d =>
    simp only [Clause.apply, modify, hold, push]
    split
    · rw [h, Bool.true_or]
    · exact h
  | union e d =>
    simp only [Clause.apply, modify, hold]
    split
    · rfl
    · exact h

/-- A type with a declaration of its own is no union and belongs to itself or to a union; any other
type has neither fields nor a base. -/
structure Grouped (s : Catalogue) : Prop where
  scalarsDeclared : s.ScalarsDeclared
  idle : ∀ x, (s.entry x).isConcrete = false → (s.entry x).fields = [] ∧ (s.entry x).base = none
  concrete : ∀ x, (s.entry x).isConcrete = true → (s.entry x).isUnion = false ∧
    ∃ b, (s.entry x).base = some b ∧ (b = x ∨ (s.entry b).isUnion = true)

/-- A type that is declared now belongs to its result, which is the type itself or is now a union. -/
theorem Grouped.apply_declared {a : Shape} {d : Option String} (hfits : (Clause.type a d).Fits s) :
    (((Clause.type a d).apply s).entry a.name).isUnion = false ∧
      ∃ b, (((Clause.type a d).apply s).entry a.name).base = some b ∧
        (b = a.name ∨ (((Clause.type a d).apply s).entry b).isUnion = true) := by
  simp only [Clause.apply, modify, hold, if_pos]
  refine ⟨hfits.1.2, a.result, rfl, ?_⟩
  by_cases hr : a.result = a.name
  · exact .inl hr
  · right
    simp only [if_neg hr, if_pos]

theorem Grouped.apply (hs : s.Grouped) (hfits : k.Fits s) : (k.apply s).Grouped := by
  refine ⟨hs.scalarsDeclared.apply k, fun x hx => ?_, fun x hx => ?_⟩
  · cases hc : (s.entry x).isConcrete with
    | true =>
      rw [entry_apply_of_concrete hfits hc, hc] at hx
      cases hx
    | false =>
      have hidle := hs.idle x hc
      cases k with
      | skip => exact hidle
      | type a d =>
        by_cases hn : x = a.name
        · rw [hn, Clause.isConcrete_type_self hs.scalarsDeclared hfits] at hx
          cases hx
        · simp only [Clause.apply, modify, hold, if_neg hn]
          split <;> exact hidle
      | function n a d =>
        simp only [Clause.apply, modify, hold, push]
        split <;> exact hidle
      | union e d =>
        simp only [Clause.apply, modify, hold]
        split <;> exact hidle
  · cases hc : (s.entry x).isConcrete with
    | true =>
      obtain ⟨hu, b, hb, hgroup⟩ := hs.concrete x hc
      rw [entry_apply_of_concrete hfits hc]
      exact ⟨hu, b, hb, hgroup.imp_right (isUnion_entry_apply k)⟩
    | false =>
      -- the clause has made the type concrete, so it is the declaration of the type
      cases k with
      | skip =>
        rw [Clause.apply, hc] at hx
        cases hx
      | type a d =>
        by_cases hn : x = a.name
        · rw [hn]
          exact apply_declared hfits
        · rw [Clause.isConcrete_type hn, hc] at hx
          cases hx
      | function n a d =>
        rw [Clause.isConcrete_function, hc] at hx
        cases hx
      | union e d =>
        rw [Clause.isConcrete_union, hc] at hx
        cases hx

theorem isConcrete_entry_initial (x : TypeExpr) : (initial.entry x).isConcrete = false := by
  cases he : initial.findExpr? x with
  | none => rw [entry_of_none he]; rfl
  | some id =>
    have hall : ∀ id < initial.size, (initial.get id).scalar.isNone = false := by decide
    rw [entry_of_findExpr? he, Entry.isConcrete, entryOf, hall id (Sound.initial.lt_size_of_findExpr? he),
      Bool.and_false]

theorem grouped_initial : initial.catalogue.Grouped where
  scalarsDeclared := scalarsDeclared_initial
  idle x _ := by
    show (initial.entry x).fields = [] ∧ (initial.entry x).base = none
    cases he : initial.findExpr? x with
    | none => rw [entry_of_none he]; exact ⟨rfl, rfl⟩
    | some id =>
      rw [entry_of_findExpr? he, entryOf, (get_initial id).1, (get_initial id).2]
      exact ⟨rfl, rfl⟩
  concrete x hx := by
    rw [show (initial.catalogue.entry x).isConcrete = false from isConcrete_entry_initial x] at hx
    cases hx

theorem Evolves.grouped {s' : Catalogue} (h : Evolves s s') (hs : s.Grouped) : s'.Grouped :=
  h.keeps (fun _ _ hfits ht => ht.apply hfits) hs

end Catalogue

namespace Registry
open Admission
variable {g : Registry} {id u : TypeId}

theorem Built.initial : Registry.initial.Built := .refl

theorem Built.addType (hg : g.Built) (decl : Declaration) : ((addType decl).after g).Built :=
  hg.tail ⟨.types, .declaration decl, (after_addItem_type decl g).symm⟩

theorem Built.addFunction (hg : g.Built) (decl : Declaration) :
    ((Admission.addFunction decl).after g).Built :=
  hg.tail ⟨.functions, .declaration decl, (after_addItem_function decl g).symm⟩

theorem Built.documentUnion (hg : g.Built) (name : String) (d : Option String) :
    ((documentUnion name d).after g).Built :=
  hg.tail ⟨.types, .union name d 0, (after_addItem_union .types name d 0 g).symm⟩

theorem Built.grouped (hg : g.Built) : g.catalogue.Grouped :=
  (Leads.evolves closed_initial hg).2.grouped Catalogue.grouped_initial

theorem isConcrete_entryOf (g : Registry) (r : TypeRecord) :
    (g.entryOf r).isConcrete = r.isConcrete := rfl

/-- A type without a declaration of its own has neither fields nor a base. -/
theorem Built.idle (hg : g.Built) (hid : id < g.size) (hc : (g.get id).isConcrete = false) :
    (g.get id).fields = [] ∧ (g.get id).base = none := by
  have hentry : g.catalogue.entry (g.exprAt id) = _ := entry_exprAt hg.closed.toSound hid
  have hidle := hg.grouped.idle (g.exprAt id)
  rw [hentry, isConcrete_entryOf] at hidle
  obtain ⟨hfields, hbase⟩ := hidle hc
  exact ⟨List.map_eq_nil_iff.mp hfields, Option.map_eq_none_iff.mp hbase⟩

/-- A type with a declaration of its own belongs to itself or to a union. -/
theorem Built.base (hg : g.Built) (hid : id < g.size) (hc : (g.get id).isConcrete = true) :
    (g.get id).isUnion = false ∧ ∃ b < g.size, (g.get id).base = some b ∧
      (b = id ∨ (g.get b).isUnion = true) := by
  have hsound := hg.closed.toSound
  have hentry : g.catalogue.entry (g.exprAt id) = _ := entry_exprAt hsound hid
  have hconcrete := hg.grouped.concrete (g.exprAt id)
  rw [hentry, isConcrete_entryOf] at hconcrete
  obtain ⟨hu, e, he, hgroup⟩ := hconcrete hc
  obtain ⟨b, hb, rfl⟩ := Option.map_eq_some_iff.mp he
  have hlt := hg.closed.base_lt id b hb
  refine ⟨hu, b, hlt, hb, hgroup.imp (hsound.exprAt_inj hlt hid) fun h => ?_⟩
  rwa [show g.catalogue.entry (g.exprAt b) = _ from entry_exprAt hsound hlt] at h

theorem mem_variants_iff :
    id ∈ g.variants u ↔ id < g.size ∧ (g.get id).base = some u ∧ id ≠ u := by
  simp [variants]

theorem isConcrete_iff {r : TypeRecord} :
    r.isConcrete = true ↔ r.isDeclared = true ∧ r.scalar = none := by
  rw [TypeRecord.isConcrete, Bool.and_eq_true, Option.isNone_iff_eq_none]

theorem lt_size_of_isUnion (h : (g.get u).isUnion = true) : u < g.size := by
  rcases Nat.lt_or_ge u g.size with hu | hu
  · exact hu
  · rw [get_of_size_le hu] at h
    cases h

/-- In a registry made by items, admitted or refused, a union has neither fields nor a base and is no
declared type, scalars apart; a type that is no scalar has a base exactly if it is declared, and the
base is the type itself, which is then no union, or a union. So the members of the unions are the
declared types that do not belong to themselves, each of them once in one union. -/
theorem members_partition (hg : g.Built) :
    (∀ id < g.size, (g.get id).isUnion = true → (g.get id).fields = [] ∧ (g.get id).base = none ∧
      ((g.get id).isDeclared = true → (g.get id).scalar.isSome = true)) ∧
    (∀ id < g.size, (g.get id).scalar = none →
      ((g.get id).base.isSome = true ↔ (g.get id).isDeclared = true)) ∧
    (∀ id < g.size, (g.get id).isDeclared = true → ∀ b, (g.get id).base = some b →
      (b = id ∧ (g.get id).isUnion = false) ∨ (b < g.size ∧ (g.get b).isUnion = true)) ∧
    (∀ u v, (g.get u).isUnion = true → (g.get v).isUnion = true → u ≠ v →
      (g.variants u).Disjoint (g.variants v)) ∧
    (∀ u, (g.variants u).Nodup) ∧
    ∀ id, (∃ u, (g.get u).isUnion = true ∧ id ∈ g.variants u) ↔
      id < g.size ∧ (g.get id).isDeclared = true ∧ (g.get id).scalar = none ∧
        (g.get id).base ≠ some id := by
  have hconcrete : ∀ id < g.size, (g.get id).base.isSome = true → (g.get id).isConcrete = true := by
    intro id hid hb
    cases hc : (g.get id).isConcrete with
    | true => rfl
    | false =>
      rw [(hg.idle hid hc).2] at hb
      cases hb
  refine ⟨fun id hid hu => ?_, fun id hid hs => ⟨fun hb => ?_, fun hd => ?_⟩, fun id hid _ b hb => ?_,
    fun u v _ _ hne id hu hv => ?_, fun u => List.nodup_range.filter _, fun id => ⟨?_, ?_⟩⟩
  · cases hc : (g.get id).isConcrete with
    | true =>
      rw [(hg.base hid hc).1] at hu
      cases hu
    | false =>
      obtain ⟨hfields, hbase⟩ := hg.idle hid hc
      refine ⟨hfields, hbase, fun hd => ?_⟩
      rw [TypeRecord.isConcrete, hd, Bool.true_and] at hc
      exact Option.isNone_eq_false_iff.mp hc
  · exact (isConcrete_iff.mp (hconcrete id hid hb)).1
  · obtain ⟨-, b, -, hb, -⟩ := hg.base hid (isConcrete_iff.mpr ⟨hd, hs⟩)
    rw [hb]
    rfl
  · obtain ⟨hu, b', hlt, hb', hgroup⟩ := hg.base hid (hconcrete id hid (by rw [hb]; rfl))
    rw [hb] at hb'
    cases hb'
    exact hgroup.imp (fun h => ⟨h, hu⟩) fun h => ⟨hlt, h⟩
  · have hbase := (mem_variants_iff.mp hu).2.1
    rw [(mem_variants_iff.mp hv).2.1] at hbase
    exact hne (Option.some.inj hbase).symm
  · rintro ⟨u, -, hmem⟩
    obtain ⟨hid, hb, hne⟩ := mem_variants_iff.mp hmem
    obtain ⟨hd, hs⟩ := isConcrete_iff.mp (hconcrete id hid (by rw [hb]; rfl))
    refine ⟨hid, hd, hs, fun hself => hne ?_⟩
    rw [hb] at hself
    exact (Option.some.inj hself).symm
  · rintro ⟨hid, hd, hs, hself⟩
    obtain ⟨-, b, hlt, hb, hgroup⟩ := hg.base hid (isConcrete_iff.mpr ⟨hd, hs⟩)
    have hne : b ≠ id := by
      rintro rfl
      exact hself hb
    exact ⟨b, hgroup.resolve_left hne, mem_variants_iff.mpr ⟨hid, hb, hne.symm⟩⟩

/-- A union with one member, a type that belongs to itself, and the union that a function gives back;
the declaration of the first union as a type is refused. -/
def shapes : Registry :=
  let documented := (documentUnion "Shape" (some "A shape.")).after initial
  let declared := (addType ⟨⟨"point", [⟨"x", "double", 7⟩], "point"⟩, 3, {}⟩).after
    ((addType ⟨⟨"circle", [⟨"r", "double", 8⟩], "Shape"⟩, 2, {}⟩).after documented)
  (addType ⟨⟨"Shape", [⟨"n", "int32", 7⟩], "Other"⟩, 5, {}⟩).after
    ((Admission.addFunction ⟨⟨"getArea", [], "Area"⟩, 4, {}⟩).after declared)

theorem members_partition_shapes :
    shapes.Built ∧ (shapes.size = 11 ∧ (shapes.get 7).isUnion = true ∧ (shapes.get 10).isUnion = true ∧
      shapes.variants 7 = [8] ∧ (shapes.get 9).base = some 9) ∧
    ((shapes.get 7).fields = [] ∧ (shapes.get 7).base = none) ∧
    (∃ u, (shapes.get u).isUnion = true ∧ 8 ∈ shapes.variants u) ∧
    ¬ ∃ u, (shapes.get u).isUnion = true ∧ 9 ∈ shapes.variants u := by
  have hg : shapes.Built :=
    ((((Built.initial.documentUnion _ _).addType _).addType _).addFunction _).addType _
  have hrun : shapes.size = 11 ∧ (shapes.get 7).isUnion = true ∧ (shapes.get 10).isUnion = true ∧
      shapes.variants 7 = [8] ∧ (shapes.get 9).base = some 9 := by
    decide +kernel
  have ⟨hsize, hunion, _, hmembers, hself⟩ := hrun
  obtain ⟨hplain, -, -, -, -, hpartition⟩ := members_partition hg
  obtain ⟨hfields, hbase, -⟩ := hplain 7 (by rw [hsize]; decide) hunion
  refine ⟨hg, hrun, ⟨hfields, hbase⟩, ⟨7, hunion, by rw [hmembers]; exact List.mem_singleton_self 8⟩,
    fun hmem => ?_⟩
  exact ((hpartition 9).mp hmem).2.2.2 hself

end Registry

end TypeLang
