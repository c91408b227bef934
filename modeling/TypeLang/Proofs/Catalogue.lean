import Mathlib.Data.Multiset.MapFold
import TypeLang.Proofs.Refusal

/-! # The catalogue of a registry

A catalogue says what a registry holds without places: which expressions have a record, what is known
of each, and which functions there are. Places depend on the order in which types are named, the
catalogue does not. `Closed g`: every place that a record or function mentions is there; then growth
changes nothing of what is known (`entry_of_grows`), and a change to one record is a change to one
entry (`entry_update`). -/

namespace TypeLang

namespace TypeExpr

/-- The expression and those inside it. -/
def parts : TypeExpr → List TypeExpr
  | name s => [name s]
  | generic outer a => generic outer a :: a.parts

/-- The expression under all generic ones. -/
def leaf : TypeExpr → TypeExpr
  | name s => name s
  | generic _ a => a.leaf

/-- Whether the expression has an argument. -/
def isGeneric : TypeExpr → Bool
  | name _ => false
  | generic .. => true

theorem self_mem_parts (e : TypeExpr) : e ∈ e.parts := by
  cases e <;> simp [parts]

/-- The only expression without argument inside another is the leaf. -/
theorem eq_leaf_of_mem_parts {e : TypeExpr} {s : String} (h : name s ∈ e.parts) : e.leaf = name s := by
  induction e with
  | name t => exact (List.mem_singleton.mp h).symm
  | generic outer a ih =>
    rcases List.mem_cons.mp h with h | h
    · cases h
    · exact ih h

theorem isGeneric_leaf (e : TypeExpr) : e.leaf.isGeneric = false := by
  induction e with
  | name s => rfl
  | generic outer a ih => exact ih

theorem leaf_of_not_isGeneric {e : TypeExpr} (h : e.isGeneric = false) : e.leaf = e := by
  cases e with
  | name s => rfl
  | generic outer a => cases h

end TypeExpr

/-- What is known of a type, with other types as expressions. -/
structure Entry where
  description : Option String := none
  fields : List FieldShape := []
  base : Option TypeExpr := none
  isUnion : Bool := false
  scalar : Option Scalar := none
  isDeclared : Bool := false

/-- What is known of a function, with types as expressions. -/
structure FunctionEntry where
  name : String
  description : Option String
  arguments : List FieldShape
  result : TypeExpr

/-- What a registry holds, without places. A type without a record has the entry of a placeholder. -/
@[ext]
structure Catalogue where
  Holds : TypeExpr → Prop
  entry : TypeExpr → Entry
  functions : Multiset FunctionEntry

/-- The status of the type of an entry. -/
def Entry.status (r : Entry) : Status := ⟨r.isDeclared, r.isUnion, r.scalar.isSome⟩

namespace Registry
variable {g g' g'' : Registry} {id : TypeId} {k : TypeKey} {n : String} {e x : TypeExpr}

/-- A field with its type as an expression. -/
def fieldShape (g : Registry) (f : Field) : FieldShape := ⟨f.name, f.description, g.exprAt f.type⟩

/-- What a record says of its type. -/
def entryOf (g : Registry) (r : TypeRecord) : Entry :=
  ⟨r.description, r.fields.map g.fieldShape, r.base.map g.exprAt, r.isUnion, r.scalar, r.isDeclared⟩

/-- What is known of a type. -/
def entry (g : Registry) (e : TypeExpr) : Entry :=
  (g.findExpr? e).elim {} fun id => g.entryOf (g.get id)

/-- A function with types as expressions. -/
def functionEntry (g : Registry) (f : FunctionRecord) : FunctionEntry :=
  ⟨f.name, f.description, f.arguments.map g.fieldShape, g.exprAt f.result⟩

/-- The catalogue of a registry. -/
def catalogue (g : Registry) : Catalogue where
  Holds e := (g.findExpr? e).isSome
  entry := g.entry
  functions := (g.functions.toList.map g.functionEntry : List FunctionEntry)

/-- A sound registry whose records and functions mention only places that are there. -/
structure Closed (g : Registry) : Prop extends Sound g where
  field_lt : ∀ id, ∀ f ∈ (g.get id).fields, f.type < g.size
  base_lt : ∀ id b, (g.get id).base = some b → b < g.size
  argument_lt : ∀ f ∈ g.functions, ∀ a ∈ f.arguments, a.type < g.size
  result_lt : ∀ f ∈ g.functions, f.result < g.size

theorem entry_of_findExpr? (h : g.findExpr? e = some id) : g.entry e = g.entryOf (g.get id) := by
  rw [entry, h, Option.elim_some]

theorem status_entry (g : Registry) (e : TypeExpr) : (g.entry e).status = g.status e := by
  rw [entry, status]
  cases g.findExpr? e <;> rfl

/-! ### Which expressions have a record -/

theorem eq_fst_internKey (h₁ : g.size ≤ id) (h₂ : id < (g.internKey k n).2.size) :
    id = (g.internKey k n).1 := by
  cases h : g.find? k with
  | some j => rw [internKey_of_find? h] at h₂; exact absurd h₂ (Nat.not_lt.mpr h₁)
  | none =>
    rw [internKey_of_none h, size_insert] at h₂
    rw [internKey_of_none h]
    exact Nat.le_antisymm (Nat.le_of_lt_succ h₂) h₁

/-- The records that interning adds are those of parts of the expression. -/
theorem exprAt_intern_mem_parts (hg : g.Sound) (h₁ : g.size ≤ id) (h₂ : id < (g.intern e).2.size) :
    (g.intern e).2.exprAt id ∈ e.parts := by
  induction e with
  | name s =>
    have hid : id = (g.intern (.name s)).1 := eq_fst_internKey h₁ h₂
    rw [hid, (hg.intern _).exprAt_of_findExpr? (findExpr?_intern g (.name s))]
    exact TypeExpr.self_mem_parts _
  | generic outer a ih =>
    rcases Nat.lt_or_ge id (g.intern a).2.size with hlt | hge
    · have hgr : Grows (g.intern a).2 (g.intern (.generic outer a)).2 := grows_internKey _ _ _
      rw [hgr.exprAt (hg.intern a) (hg.intern _) hlt]
      exact List.mem_cons_of_mem _ (ih hlt)
    · have hid : id = (g.intern (.generic outer a)).1 := eq_fst_internKey hge h₂
      rw [hid, (hg.intern _).exprAt_of_findExpr? (findExpr?_intern g (.generic outer a))]
      exact TypeExpr.self_mem_parts _

theorem isSome_findExpr?_of_mem_parts (he : (g.findExpr? e).isSome) (hx : x ∈ e.parts) :
    (g.findExpr? x).isSome := by
  induction e with
  | name s => rwa [List.mem_singleton.mp hx]
  | generic outer a ih =>
    rcases List.mem_cons.mp hx with rfl | hx
    · exact he
    · obtain ⟨id, hid⟩ := Option.isSome_iff_exists.mp he
      obtain ⟨arg, ha, -⟩ := Option.bind_eq_some_iff.mp hid
      exact ih (by rw [ha]; rfl) hx

/-- Interning an expression gives its parts a record, and nothing else. -/
theorem isSome_findExpr?_intern (hg : g.Sound) :
    ((g.intern e).2.findExpr? x).isSome ↔ (g.findExpr? x).isSome ∨ x ∈ e.parts := by
  have hgr := grows_intern g e
  constructor
  · intro h
    obtain ⟨id, hid⟩ := Option.isSome_iff_exists.mp h
    have hx := (hg.intern e).exprAt_of_findExpr? hid
    rcases Nat.lt_or_ge id g.size with hlt | hge
    · rw [hgr.exprAt hg (hg.intern e) hlt] at hx
      rw [← hx, hg.findExpr?_exprAt hlt]
      exact .inl rfl
    · rw [← hx]
      exact .inr (exprAt_intern_mem_parts hg hge ((hg.intern e).lt_size_of_findExpr? hid))
  · rintro (h | h)
    · obtain ⟨id, hid⟩ := Option.isSome_iff_exists.mp h
      rw [hgr.findExpr? hid]; rfl
    · exact isSome_findExpr?_of_mem_parts (by rw [findExpr?_intern]; rfl) h

theorem isSome_findExpr?_internFields (hg : g.Sound) (fs : List FieldShape) :
    ((g.internFields fs).2.findExpr? x).isSome ↔
      (g.findExpr? x).isSome ∨ ∃ f ∈ fs, x ∈ f.type.parts := by
  induction fs generalizing g with
  | nil => simp [internFields]
  | cons f fs ih =>
    refine (ih (hg.intern f.type)).trans ?_
    rw [isSome_findExpr?_intern hg, or_assoc]
    simp

/-! ### What is known does not change by growth -/

theorem fieldShape_of_grows (h : Grows g g') (hg : g.Sound) (hg' : g'.Sound) {fs : List Field}
    (hfs : ∀ f ∈ fs, f.type < g.size) : fs.map g'.fieldShape = fs.map g.fieldShape := by
  refine List.map_congr_left fun f hf => ?_
  rw [fieldShape, h.exprAt hg hg' (hfs f hf), fieldShape]

theorem entry_of_grows (h : Grows g g') (hg : g.Closed) (hg' : g'.Sound) (e : TypeExpr) :
    g'.entry e = g.entry e := by
  refine h.elim_findExpr? hg.toSound hg' (fun id hid => ?_) (fun id hid => ?_) e
  · simp only [entryOf, h.kept id hid]
    rw [fieldShape_of_grows h hg.toSound hg' (hg.field_lt id)]
    cases hb : (g.get id).base with
    | none => rfl
    | some b => rw [Option.map_some, h.exprAt hg.toSound hg' (hg.base_lt id b hb), Option.map_some]
  · rw [h.fresh id hid]; rfl

theorem functionEntry_of_grows (h : Grows g g') (hg : g.Closed) (hg' : g'.Sound) :
    g'.functions.toList.map g'.functionEntry = g.functions.toList.map g.functionEntry := by
  rw [h.functions]
  refine List.map_congr_left fun f hf => ?_
  have hf := Array.mem_toList_iff.mp hf
  rw [functionEntry, fieldShape_of_grows h hg.toSound hg' (hg.argument_lt f hf),
    h.exprAt hg.toSound hg' (hg.result_lt f hf), functionEntry]

theorem Closed.grows (hg : g.Closed) (h : Grows g g') (hg' : g'.Sound) : g'.Closed where
  toSound := hg'
  field_lt id f hf := by
    rcases Nat.lt_or_ge id g.size with hid | hid
    · rw [h.kept id hid] at hf; exact Nat.lt_of_lt_of_le (hg.field_lt id f hf) h.size_le
    · rw [h.fresh id hid] at hf; cases hf
  base_lt id b hb := by
    rcases Nat.lt_or_ge id g.size with hid | hid
    · rw [h.kept id hid] at hb; exact Nat.lt_of_lt_of_le (hg.base_lt id b hb) h.size_le
    · rw [h.fresh id hid] at hb; cases hb
  argument_lt f hf a ha :=
    Nat.lt_of_lt_of_le (hg.argument_lt f (h.functions ▸ hf) a ha) h.size_le
  result_lt f hf := Nat.lt_of_lt_of_le (hg.result_lt f (h.functions ▸ hf)) h.size_le

/-! ### A change to one record is a change to one entry -/

theorem SameKeys.fieldShape (h : SameKeys g g') : g'.fieldShape = g.fieldShape := by
  funext f
  rw [Registry.fieldShape, h.exprAt, Registry.fieldShape]

theorem SameKeys.functionEntry (h : SameKeys g g') : g'.functionEntry = g.functionEntry := by
  funext f
  rw [Registry.functionEntry, h.fieldShape, h.exprAt, Registry.functionEntry]

theorem SameKeys.entryOf (h : SameKeys g g') : g'.entryOf = g.entryOf := by
  funext r
  rw [Registry.entryOf, h.fieldShape, funext h.exprAt, Registry.entryOf]

theorem entry_update (f : TypeRecord → TypeRecord) (φ : Entry → Entry) (hg : g.Sound)
    (he : g.findExpr? e = some id) (ha : ∀ r, (f r).argument = r.argument)
    (hn : ∀ r, (f r).name = r.name) (hφ : ∀ r, g.entryOf (f r) = φ (g.entryOf r)) (x : TypeExpr) :
    (g.update id f).entry x = if x = e then φ (g.entry x) else g.entry x := by
  have hsk := sameKeys_update g id f ha hn
  have hget := get_update f (hg.lt_size_of_findExpr? he)
  rw [entry, hsk.findExpr?, hsk.entryOf]
  by_cases hx : x = e
  · subst hx
    rw [if_pos rfl, he, Option.elim_some, hget, if_pos rfl, hφ, entry_of_findExpr? he]
  · rw [if_neg hx, entry]
    cases h : g.findExpr? x with
    | none => rfl
    | some j =>
      have hj : j ≠ id := fun heq => hx <| by
        rw [← hg.exprAt_of_findExpr? h, ← hg.exprAt_of_findExpr? he, heq]
      rw [Option.elim_some, Option.elim_some, hget, if_neg hj]

theorem entry_describe (hg : g.Sound) (he : g.findExpr? e = some id) (d : Option String)
    (x : TypeExpr) : (g.describe id d).entry x =
      if x = e then { g.entry x with description := d } else g.entry x :=
  entry_update (fun r => { r with description := d }) (fun r => { r with description := d }) hg he
    (fun _ => rfl) (fun _ => rfl) (fun _ => rfl) x

theorem entry_fill (hg : g.Sound) (he : g.findExpr? e = some id) (fields : List Field)
    (x : TypeExpr) : (g.fill id fields).entry x =
      if x = e then { g.entry x with fields := fields.map g.fieldShape, isDeclared := true }
      else g.entry x :=
  entry_update (fun r => { r with fields, isDeclared := true })
    (fun r => { r with fields := fields.map g.fieldShape, isDeclared := true }) hg he
    (fun _ => rfl) (fun _ => rfl) (fun _ => rfl) x

theorem entry_flag (hg : g.Sound) (he : g.findExpr? e = some id) (x : TypeExpr) :
    (g.flag id).entry x = if x = e then { g.entry x with isUnion := true } else g.entry x :=
  entry_update (fun r => { r with isUnion := true }) (fun r => { r with isUnion := true }) hg he
    (fun _ => rfl) (fun _ => rfl) (fun _ => rfl) x

theorem entry_setBase {b : TypeId} (hg : g.Sound) (he : g.findExpr? e = some id) (x : TypeExpr) :
    (g.setBase id b).entry x =
      if x = e then { g.entry x with base := some (g.exprAt b) } else g.entry x :=
  entry_update (fun r => { r with base := some b })
    (fun r => { r with base := some (g.exprAt b) }) hg he
    (fun _ => rfl) (fun _ => rfl) (fun _ => rfl) x

theorem Closed.update {f : TypeRecord → TypeRecord} (hg : g.Closed)
    (ha : ∀ r, (f r).argument = r.argument) (hn : ∀ r, (f r).name = r.name)
    (hf : ∀ a ∈ (f (g.get id)).fields, a.type < g.size)
    (hb : ∀ b, (f (g.get id)).base = some b → b < g.size) : (g.update id f).Closed where
  toSound := hg.toSound.update ha hn id
  field_lt j a ha := by
    rw [size_update]
    rcases get_update_cases g id f j with heq | ⟨rfl, heq⟩ <;> rw [heq] at ha
    · exact hg.field_lt j a ha
    · exact hf a ha
  base_lt j b hj := by
    rw [size_update]
    rcases get_update_cases g id f j with heq | ⟨rfl, heq⟩ <;> rw [heq] at hj
    · exact hg.base_lt j b hj
    · exact hb b hj
  argument_lt := by rw [size_update]; exact hg.argument_lt
  result_lt := by rw [size_update]; exact hg.result_lt

end Registry

end TypeLang
