import TypeLang.Proofs.Clause
import TypeLang.Registry.Undeclared

/-! # What verification looks at

Verification goes down from the type of every field and argument to its leaf and asks whether that is
known: declared or a union. The leaf of a place is the place of the leaf (`exprAt_leaf`), so in a
closed registry the question is one about the catalogue: `undeclared_eq_nil_iff`. -/

namespace TypeLang

/-- Whether the type of an entry is declared or a union. -/
def Entry.isKnown (r : Entry) : Bool := r.isDeclared || r.isUnion

namespace Catalogue

/-- The type under all generic ones is declared or a union. -/
def Knows (s : Catalogue) (e : TypeExpr) : Prop := (s.entry e.leaf).isKnown = true

/-- Every field and every argument is of a known type. -/
def Verified (s : Catalogue) : Prop :=
  (∀ e, ∀ f ∈ (s.entry e).fields, s.Knows f.type) ∧
    ∀ f ∈ s.functions, ∀ a ∈ f.arguments, s.Knows a.type

end Catalogue

namespace Registry
variable {g : Registry} {id : TypeId} {e : TypeExpr}

theorem exprAt_leaf (hg : g.Sound) (id : TypeId) : g.exprAt (g.leaf id).1 = (g.exprAt id).leaf := by
  fun_induction leaf g id with
  | case1 id arg harg hlt l depth hleaf ih =>
    rw [hleaf] at ih
    rw [hg.exprAt_of_some harg]
    exact ih
  | case2 id arg harg hlt => exact absurd (hg.older id arg harg) hlt
  | case3 id hnone =>
    rw [exprAt_of_none hnone]
    rfl

theorem leaf_le (g : Registry) (id : TypeId) : (g.leaf id).1 ≤ id := by
  fun_induction leaf g id with
  | case1 id arg harg hlt l depth hleaf ih =>
    rw [hleaf] at ih
    exact Nat.le_trans ih (Nat.le_of_lt hlt)
  | case2 => exact Nat.le_refl _
  | case3 => exact Nat.le_refl _

theorem argument_leaf (hg : g.Sound) (hid : id < g.size) : (g.get (g.leaf id).1).argument = none := by
  have hlt := Nat.lt_of_le_of_lt (leaf_le g id) hid
  have hnone := isNone_argument hg (hg.findExpr?_exprAt hlt)
  rw [exprAt_leaf hg, TypeExpr.isGeneric_leaf] at hnone
  exact Option.isNone_iff_eq_none.mp hnone

theorem entry_exprAt (hg : g.Sound) (hid : id < g.size) :
    g.entry (g.exprAt id) = g.entryOf (g.get id) :=
  entry_of_findExpr? (hg.findExpr?_exprAt hid)

theorem knows_exprAt (hg : g.Sound) (hid : id < g.size) :
    g.catalogue.Knows (g.exprAt id) ↔
      (g.get (g.leaf id).1).isDeclared = true ∨ (g.get (g.leaf id).1).isUnion = true := by
  show (g.entry (g.exprAt id).leaf).isKnown = true ↔ _
  rw [← exprAt_leaf hg, entry_exprAt hg (Nat.lt_of_le_of_lt (leaf_le g id) hid), Entry.isKnown,
    Bool.or_eq_true]
  rfl

theorem undeclaredField?_eq_none_iff {owner : String} {f : Field} (hg : g.Sound)
    (hf : f.type < g.size) :
    g.undeclaredField? owner f = none ↔ g.catalogue.Knows (g.fieldShape f).type := by
  rw [fieldShape, knows_exprAt hg hf, ← Bool.or_eq_true, undeclaredField?]
  split
  · next h => simp only [h]
  · next h => simp only [reduceCtorEq, h]

theorem mem_records_iff {r : TypeRecord} : r ∈ g.records.toList ↔ ∃ id < g.size, g.get id = r := by
  rw [Array.mem_toList_iff, Array.mem_iff_getElem]
  constructor
  · rintro ⟨id, hid, rfl⟩; exact ⟨id, hid, get_eq_getElem hid⟩
  · rintro ⟨id, hid, rfl⟩; exact ⟨id, hid, (get_eq_getElem hid).symm⟩

theorem forall_entry_fields_iff (hg : g.Closed) {P : FieldShape → Prop} :
    (∀ e, ∀ f ∈ (g.entry e).fields, P f) ↔
      ∀ r ∈ g.records.toList, ∀ f ∈ r.fields, P (g.fieldShape f) := by
  constructor
  · intro h r hr f hf
    obtain ⟨id, hid, rfl⟩ := mem_records_iff.mp hr
    refine h (g.exprAt id) _ ?_
    rw [entry_exprAt hg.toSound hid]
    exact List.mem_map_of_mem hf
  · intro h e f hf
    cases he : g.findExpr? e with
    | none => rw [entry, he] at hf; cases hf
    | some id =>
      rw [entry_of_findExpr? he] at hf
      obtain ⟨a, ha, rfl⟩ := List.mem_map.mp hf
      exact h _ (mem_records_iff.mpr ⟨id, hg.lt_size_of_findExpr? he, rfl⟩) a ha

/-- There is nothing to complain about where every field and argument is of a known type. -/
theorem undeclared_eq_nil_iff (hg : g.Closed) : g.undeclared = [] ↔ g.catalogue.Verified := by
  rw [undeclared, List.append_eq_nil_iff]
  simp only [List.flatMap_eq_nil_iff, List.filterMap_eq_nil_iff]
  refine and_congr ((forall_entry_fields_iff hg).trans ?_).symm ?_
  · refine forall_congr' fun r => forall_congr' fun hr => forall_congr' fun f => forall_congr' fun hf => ?_
    obtain ⟨id, -, rfl⟩ := mem_records_iff.mp hr
    exact (undeclaredField?_eq_none_iff hg.toSound (hg.field_lt id f hf)).symm
  · constructor
    · intro h fe hfe a ha
      obtain ⟨f, hf, rfl⟩ := List.mem_map.mp (Multiset.mem_coe.mp hfe)
      obtain ⟨b, hb, rfl⟩ := List.mem_map.mp ha
      have hlt := hg.argument_lt f (Array.mem_toList_iff.mp hf) b hb
      exact (undeclaredField?_eq_none_iff hg.toSound hlt).mp (h f hf b hb)
    · intro h f hf a ha
      refine (undeclaredField?_eq_none_iff hg.toSound ?_).mpr
        (h (g.functionEntry f) (Multiset.mem_coe.mpr (List.mem_map_of_mem hf)) _ (List.mem_map_of_mem ha))
      exact hg.argument_lt f (Array.mem_toList_iff.mp hf) a ha

end Registry

end TypeLang
