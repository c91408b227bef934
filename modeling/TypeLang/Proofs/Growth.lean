import Mathlib.Tactic.Common
import TypeLang.Proofs.TypeExpr
import TypeLang.Registry.Basic

/-! # How a registry grows

Naming a type never changes a record. `Grows g g'`: `g'` has the records and the functions of `g`,
and behind them only placeholders, and every key of `g` leads where it led. `intern` makes its registry
grow and leaves the type in it (`findExpr?_intern`), and a type that was there keeps its place
(`intern_of_findExpr?`). -/

namespace TypeLang

theorem lookup_cons_eq_if {α β : Type} [BEq α] [LawfulBEq α] [DecidableEq α] (k k' : α) (b : β)
    (es : List (α × β)) : ((k', b) :: es).lookup k = if k = k' then some b else es.lookup k := by
  rw [List.lookup_cons]
  by_cases h : k = k'
  · rw [if_pos h, beq_iff_eq.mpr h]
  · rw [if_neg h, beq_eq_false_iff_ne.mpr h]

/-- The record of a type that was named and no more. -/
def TypeRecord.IsPlaceholder (r : TypeRecord) : Prop := r = { name := r.name, argument := r.argument }

namespace Registry
variable {g g' g'' : Registry} {id : TypeId} {k : TypeKey} {n : String} {e : TypeExpr}

/-- The place of the record of a type, and the registry that holds it. Arguments come first. -/
def intern (g : Registry) : TypeExpr → TypeId × Registry
  | .name s => g.internKey ⟨s, none⟩ s
  | .generic outer a =>
    let (arg, g') := g.intern a
    g'.internKey ⟨outer, some arg⟩ (outer ++ "<" ++ (g'.get arg).name ++ ">")

/-- The place of the record of a type, if it and all its arguments have one. -/
def findExpr? (g : Registry) : TypeExpr → Option TypeId
  | .name s => g.find? ⟨s, none⟩
  | .generic outer a => (g.findExpr? a).bind fun arg => g.find? ⟨outer, some arg⟩

/-- The key that the index has for a place. -/
def key (g : Registry) (id : TypeId) : TypeKey :=
  ((g.index.find? (·.2 == id)).map (·.1)).getD ⟨"", none⟩

/-! ### Records by place -/

theorem get_of_size_le (h : g.size ≤ id) : g.get id = { name := "" } := by
  simp [get, get?, Array.getElem?_eq_none h]

theorem get_eq_getElem (h : id < g.size) : g.get id = g.records[id] := by
  simp [get, get?, Array.getElem?_eq_getElem h]

/-- A registry is given by its functions, its indexes, its size and the records at its places. -/
theorem ext_get (hf : g'.functions = g.functions) (hfi : g'.functionIndex = g.functionIndex)
    (hi : g'.index = g.index) (hs : g'.size = g.size)
    (hr : ∀ id < g.size, g'.get id = g.get id) : g' = g := by
  obtain ⟨rs', fs', is', js'⟩ := g'
  obtain ⟨rs, fs, is, js⟩ := g
  simp only [Registry.mk.injEq]
  refine ⟨Array.ext hs fun i h₁ h₂ => ?_, hf, hi, hfi⟩
  have h := hr i h₂
  rw [get_eq_getElem (g := ⟨rs', fs', is', js'⟩) h₁, get_eq_getElem (g := ⟨rs, fs, is, js⟩) h₂] at h
  exact h

theorem mem_index_of_find? (h : g.find? k = some id) : (k, id) ∈ g.index := by
  obtain ⟨before, after, hindex, -⟩ := List.lookup_eq_some_iff.mp h
  rw [hindex]
  exact List.mem_append_right _ List.mem_cons_self

/-! ### A new record -/

section Insert
variable (g : Registry) (k : TypeKey) (r : TypeRecord)

theorem size_insert : (g.insert k r).2.size = g.size + 1 := Array.size_push _

theorem get_insert (id : TypeId) :
    (g.insert k r).2.get id = if id = g.size then r else g.get id := by
  simp only [insert, get, get?, Array.getElem?_push]
  show Option.getD (if id = g.size then _ else _) _ = _
  split <;> rfl

theorem find?_insert (k' : TypeKey) :
    (g.insert k r).2.find? k' = if k' = k then some g.size else g.find? k' :=
  lookup_cons_eq_if k' k g.size g.index

theorem key_insert (id : TypeId) :
    (g.insert k r).2.key id = if id = g.size then k else g.key id := by
  simp only [insert, key, List.find?_cons]
  by_cases h : id = g.size
  · simp [h]
  · rw [beq_eq_false_iff_ne.mpr (Ne.symm h), if_neg h]

end Insert

theorem internKey_of_find? (h : g.find? k = some id) : g.internKey k n = (id, g) := by
  rw [internKey, h]

theorem internKey_of_none (h : g.find? k = none) :
    g.internKey k n = g.insert k { name := n, argument := k.argument } := by
  rw [internKey, h]

/-! ### Growth -/

/-- `g'` has the records and the functions of `g`, and behind them only placeholders. What a key led to
it leads to. -/
structure Grows (g g' : Registry) : Prop where
  functions : g'.functions = g.functions
  functionIndex : g'.functionIndex = g.functionIndex
  size_le : g.size ≤ g'.size
  kept : ∀ id < g.size, g'.get id = g.get id
  fresh : ∀ id, g.size ≤ id → (g'.get id).IsPlaceholder
  find? : ∀ {k id}, g.find? k = some id → g'.find? k = some id

namespace Grows

theorem refl (g : Registry) : Grows g g :=
  ⟨rfl, rfl, Nat.le_refl _, fun _ _ => rfl, fun _ h => by rw [get_of_size_le h]; rfl, fun h => h⟩

theorem trans (h : Grows g g') (h' : Grows g' g'') : Grows g g'' where
  functions := h'.functions.trans h.functions
  functionIndex := h'.functionIndex.trans h.functionIndex
  size_le := Nat.le_trans h.size_le h'.size_le
  kept id hid := (h'.kept id (Nat.lt_of_lt_of_le hid h.size_le)).trans (h.kept id hid)
  fresh id hid := by
    rcases Nat.lt_or_ge id g'.size with hlt | hge
    · rw [h'.kept id hlt]; exact h.fresh id hid
    · exact h'.fresh id hge
  find? hk := h'.find? (h.find? hk)

theorem insert {r : TypeRecord} (h : g.find? k = none) (hr : r.IsPlaceholder) :
    Grows g (g.insert k r).2 := by
  refine ⟨rfl, rfl, ?_, fun id hid => ?_, fun id hid => ?_, fun {k' id} hk => ?_⟩
  · rw [size_insert]; exact Nat.le_succ _
  · rw [get_insert, if_neg (Nat.ne_of_lt hid)]
  · rw [get_insert]
    split
    · exact hr
    · rw [get_of_size_le hid]; rfl
  · -- the new key led nowhere before
    have hne : k' ≠ k := by
      rintro rfl
      rw [h] at hk
      cases hk
    rwa [find?_insert, if_neg hne]

theorem findExpr? (h : Grows g g') (he : g.findExpr? e = some id) :
    g'.findExpr? e = some id := by
  induction e generalizing id with
  | name s => exact h.find? he
  | generic outer a ih =>
    obtain ⟨arg, ha, hk⟩ := Option.bind_eq_some_iff.mp he
    exact Option.bind_eq_some_iff.mpr ⟨arg, ih ha, h.find? hk⟩

end Grows

/-! ### Interning -/

theorem grows_internKey (g : Registry) (k : TypeKey) (n : String) :
    Grows g (g.internKey k n).2 := by
  cases h : g.find? k with
  | some id => rw [internKey_of_find? h]; exact Grows.refl g
  | none => rw [internKey_of_none h]; exact Grows.insert h rfl

theorem find?_internKey (g : Registry) (k : TypeKey) (n : String) :
    (g.internKey k n).2.find? k = some (g.internKey k n).1 := by
  cases h : g.find? k with
  | some id => rw [internKey_of_find? h]; exact h
  | none => rw [internKey_of_none h, find?_insert, if_pos rfl]; rfl

theorem grows_intern (g : Registry) (e : TypeExpr) : Grows g (g.intern e).2 := by
  induction e with
  | name s => exact grows_internKey g _ _
  | generic outer a ih => exact ih.trans (grows_internKey _ _ _)

theorem findExpr?_intern (g : Registry) (e : TypeExpr) :
    (g.intern e).2.findExpr? e = some (g.intern e).1 := by
  induction e with
  | name s => exact find?_internKey g _ _
  | generic outer a ih =>
    exact Option.bind_eq_some_iff.mpr
      ⟨(g.intern a).1, (grows_internKey _ _ _).findExpr? ih, find?_internKey _ _ _⟩

theorem intern_of_findExpr? (h : g.findExpr? e = some id) : g.intern e = (id, g) := by
  induction e generalizing id with
  | name s => exact internKey_of_find? h
  | generic outer a ih =>
    obtain ⟨arg, ha, hk⟩ := Option.bind_eq_some_iff.mp h
    rw [intern, ih ha]
    exact internKey_of_find? hk

end Registry

end TypeLang
