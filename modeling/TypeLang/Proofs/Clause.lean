import Mathlib.Data.Multiset.AddSub
import TypeLang.Proofs.Catalogue

/-! # Items as clauses

A clause is an item with its tokens read. `Fits` and `apply` say on catalogues when a clause is
admitted and what it adds. They never mention places, and this is what admission does to the
catalogue of a registry: `putType_catalogue`, `putFunction_catalogue` and `putUnion_catalogue` for
the effect, `addItem_cases` for whole items. -/

namespace TypeLang

/-- Whether the type of an entry has a declaration of its own. -/
def Entry.isConcrete (r : Entry) : Bool := r.isDeclared && r.scalar.isNone

theorem Entry.isConcrete_status (r : Entry) : r.status.isConcrete = r.isConcrete := by
  cases h : r.scalar <;> simp [status, Status.isConcrete, isConcrete, h]

/-- The types that get a record from the fields and the result of a declaration. -/
def Shape.Uses (s : Shape) (x : TypeExpr) : Prop :=
  (∃ f ∈ s.fields, x ∈ f.type.parts) ∨ x ∈ s.result.parts

namespace Catalogue

/-- Lets more types have a record. -/
def hold (c : Catalogue) (P : TypeExpr → Prop) : Catalogue :=
  { c with Holds := fun x => c.Holds x ∨ P x }

/-- Changes entries. -/
def modify (c : Catalogue) (φ : TypeExpr → Entry → Entry) : Catalogue :=
  { c with entry := fun x => φ x (c.entry x) }

/-- Adds a function. -/
def push (c : Catalogue) (f : FunctionEntry) : Catalogue :=
  { c with functions := f ::ₘ c.functions }

end Catalogue

/-- An item with its tokens read. -/
inductive Clause where
  /-- A constructor of a scalar. -/
  | skip
  | type (s : Shape) (d : Option String)
  | function (name : String) (s : Shape) (d : Option String)
  | union (e : TypeExpr) (d : Option String)

namespace Clause

/-- What a clause adds to a catalogue. -/
def apply : Clause → Catalogue → Catalogue
  | skip, c => c
  | type s d, c => (c.hold fun x => x ∈ s.name.parts ∨ s.Uses x).modify fun x r =>
    if x = s.name then
      { r with description := d, fields := s.fields, base := some s.result, isDeclared := true }
    else if x = s.result then { r with isUnion := true } else r
  | function name s d, c => ((c.hold s.Uses).modify fun x r =>
    if x = s.result then { r with isUnion := r.isUnion || !r.isDeclared && !s.result.isGeneric }
    else r).push ⟨name, d, s.fields, s.result⟩
  | union e d, c => (c.hold (· ∈ e.parts)).modify fun x r =>
    if x = e then { r with description := d, isUnion := true } else r

/-- When a clause is admitted. -/
def Fits : Clause → Catalogue → Prop
  | skip, _ => True
  | type s _, c => ((c.entry s.name).isDeclared = false ∧ (c.entry s.name).isUnion = false) ∧
      (s.result ≠ s.name → (c.entry s.result).isConcrete = false)
  | function name _ _, c => ∀ f ∈ c.functions, f.name ≠ name
  | union e _, c => (c.entry e).isConcrete = false

end Clause

namespace Catalogue
variable {s : Catalogue} {k : Clause} {x : TypeExpr}

/-- No clause makes or unmakes a scalar. -/
theorem scalar_entry_apply (k : Clause) (s : Catalogue) (x : TypeExpr) :
    ((k.apply s).entry x).scalar = (s.entry x).scalar := by
  cases k with
  | skip => rfl
  | type d doc =>
    simp only [Clause.apply, modify, hold]
    split
    · rfl
    · split <;> rfl
  | function name d doc => simp only [Clause.apply, modify, hold, push]; split <;> rfl
  | union e doc => simp only [Clause.apply, modify, hold]; split <;> rfl

/-- What is declared stays so. -/
theorem isDeclared_entry_apply (k : Clause) (h : (s.entry x).isDeclared = true) :
    ((k.apply s).entry x).isDeclared = true := by
  cases k with
  | skip => exact h
  | type d doc =>
    simp only [Clause.apply, modify, hold]
    split
    · rfl
    · split <;> exact h
  | function name d doc => simp only [Clause.apply, modify, hold, push]; split <;> exact h
  | union e doc => simp only [Clause.apply, modify, hold]; split <;> exact h

/-- Scalars count as declared. -/
def ScalarsDeclared (s : Catalogue) : Prop :=
  ∀ e, (s.entry e).scalar.isSome = true → (s.entry e).isDeclared = true

theorem ScalarsDeclared.apply (hs : s.ScalarsDeclared) (k : Clause) : (k.apply s).ScalarsDeclared := by
  intro x h
  rw [scalar_entry_apply] at h
  exact isDeclared_entry_apply k (hs x h)

end Catalogue

/-- The clause of an item, if its tokens are well formed. -/
def Item.clause? (kind : Admission.Kind) : Item → Option Clause
  | .declaration decl =>
    match kind with
    | .types =>
      if Admission.isScalarUnion decl.result then some .skip
      else decl.shape?.map fun s => .type s decl.docs.description?
    | .functions => decl.shape?.map fun s => .function decl.name s decl.docs.description?
  | .union name d _ => (TypeExpr.parse? name).map fun e => .union e d

namespace Registry
variable {g g' : Registry} {id : TypeId} {e x : TypeExpr} {s : Shape} {d : Option String}

theorem catalogue_eq {c : Catalogue} (hh : ∀ x, (g.findExpr? x).isSome ↔ c.Holds x)
    (he : ∀ x, g.entry x = c.entry x)
    (hf : (g.functions.toList.map g.functionEntry : List FunctionEntry) = c.functions) :
    g.catalogue = c :=
  Catalogue.ext (funext fun x => propext (hh x)) (funext he) hf

/-! ### Fields -/

/-- The fields that interning gives are the ones asked for, also when the registry grows on. -/
theorem internFields_spec {fs : List FieldShape} (hg : g.Sound)
    (h : Grows (g.internFields fs).2 g') (hg' : g'.Sound) :
    (g.internFields fs).1.map g'.fieldShape = fs ∧
      ∀ f ∈ (g.internFields fs).1, f.type < g'.size := by
  induction fs generalizing g with
  | nil => exact ⟨rfl, fun f hf => by cases hf⟩
  | cons f fs ih =>
    obtain ⟨hmap, hlt⟩ := ih (hg.intern f.type) h
    have htype : g'.findExpr? f.type = some (g.intern f.type).1 :=
      h.findExpr? ((grows_internFields _ fs).findExpr? (findExpr?_intern g f.type))
    refine ⟨?_, fun a ha => ?_⟩
    · show g'.fieldShape ⟨f.name, f.description, (g.intern f.type).1⟩ ::
        ((g.intern f.type).2.internFields fs).1.map g'.fieldShape = f :: fs
      rw [hmap, fieldShape, hg'.exprAt_of_findExpr? htype]
    · rcases List.mem_cons.mp ha with rfl | ha
      · exact hg'.lt_size_of_findExpr? htype
      · exact hlt a ha

/-! ### Steps of an admission -/

theorem Closed.announce (hg : g.Closed) (e : TypeExpr) (d : Option String) :
    (g.announce e d).2.Closed := by
  have h := hg.grows (grows_intern g e) (hg.intern e)
  exact h.update (fun _ => rfl) (fun _ => rfl) (h.field_lt _) (h.base_lt _)

theorem isSome_findExpr?_announce (hg : g.Sound) (e : TypeExpr) (d : Option String) (x : TypeExpr) :
    ((g.announce e d).2.findExpr? x).isSome ↔ (g.findExpr? x).isSome ∨ x ∈ e.parts := by
  rw [← isSome_findExpr?_intern hg]
  show ((Registry.describe _ _ _).findExpr? x).isSome ↔ _
  rw [(sameKeys_describe _ _ _).findExpr?]

theorem entry_announce (hg : g.Closed) (e : TypeExpr) (d : Option String) (x : TypeExpr) :
    (g.announce e d).2.entry x = if x = e then { g.entry x with description := d } else g.entry x := by
  have h := entry_describe (hg.intern e) (findExpr?_intern g e) d x
  rwa [entry_of_grows (grows_intern g e) hg (hg.intern e)] at h

theorem functionEntry_announce (hg : g.Closed) (e : TypeExpr) (d : Option String) :
    (g.announce e d).2.functions.toList.map (g.announce e d).2.functionEntry =
      g.functions.toList.map g.functionEntry := by
  show List.map (Registry.describe _ _ _).functionEntry _ = _
  rw [(sameKeys_describe _ _ _).functionEntry]
  exact functionEntry_of_grows (grows_intern g e) hg (hg.intern e)

theorem isSome_findExpr?_resolveShape (hg : g.Sound) (s : Shape) (x : TypeExpr) :
    ((g.resolveShape s).registry.findExpr? x).isSome ↔ (g.findExpr? x).isSome ∨ s.Uses x := by
  rw [Shape.Uses, ← or_assoc, ← isSome_findExpr?_internFields hg]
  exact isSome_findExpr?_intern (hg.internFields s.fields)

theorem fieldShape_resolveShape (hg : g.Sound) (s : Shape) :
    (g.resolveShape s).fields.map (g.resolveShape s).registry.fieldShape = s.fields ∧
      ∀ f ∈ (g.resolveShape s).fields, f.type < (g.resolveShape s).registry.size :=
  internFields_spec hg (grows_intern _ s.result) (hg.resolveShape s)

theorem Closed.resolveShape (hg : g.Closed) (s : Shape) : (g.resolveShape s).registry.Closed :=
  hg.grows (grows_resolveShape g s) (hg.toSound.resolveShape s)

theorem entry_resolveShape (hg : g.Closed) (s : Shape) (x : TypeExpr) :
    (g.resolveShape s).registry.entry x = g.entry x :=
  entry_of_grows (grows_resolveShape g s) hg (hg.toSound.resolveShape s) x

theorem functionEntry_resolveShape (hg : g.Closed) (s : Shape) :
    (g.resolveShape s).registry.functions.toList.map (g.resolveShape s).registry.functionEntry =
      g.functions.toList.map g.functionEntry :=
  functionEntry_of_grows (grows_resolveShape g s) hg (hg.toSound.resolveShape s)

theorem sameKeys_fill (g : Registry) (id : TypeId) (fields : List Field) :
    SameKeys g (g.fill id fields) :=
  sameKeys_update g id _ (fun _ => rfl) (fun _ => rfl)

theorem sameKeys_flag (g : Registry) (id : TypeId) : SameKeys g (g.flag id) :=
  sameKeys_update g id _ (fun _ => rfl) (fun _ => rfl)

theorem Sound.fill (hg : g.Sound) (id : TypeId) (fields : List Field) : (g.fill id fields).Sound :=
  hg.sameKeys (sameKeys_fill g id fields) hg.filed

theorem Sound.flag (hg : g.Sound) (id : TypeId) : (g.flag id).Sound :=
  hg.sameKeys (sameKeys_flag g id) hg.filed

theorem Closed.flag (hg : g.Closed) (id : TypeId) : (g.flag id).Closed :=
  hg.update (fun _ => rfl) (fun _ => rfl) (hg.field_lt _) (hg.base_lt _)

/-! ### Types -/

theorem sameKeys_settle (r : Resolved) (id : TypeId) : SameKeys r.registry (r.settle id) := by
  have hfill := sameKeys_fill r.registry id r.fields
  unfold Resolved.settle
  split
  · exact hfill.trans (sameKeys_setBase _ _ _)
  · exact (hfill.trans (sameKeys_flag _ _)).trans (sameKeys_setBase _ _ _)

theorem functions_settle (r : Resolved) (id : TypeId) :
    (r.settle id).functions = r.registry.functions := by
  unfold Resolved.settle
  split <;> rfl

theorem Closed.settle {r : Resolved} (hg : r.registry.Closed)
    (hf : ∀ f ∈ r.fields, f.type < r.registry.size) (hr : r.result < r.registry.size)
    (id : TypeId) : (r.settle id).Closed := by
  have hfill : (r.registry.fill id r.fields).Closed :=
    hg.update (fun _ => rfl) (fun _ => rfl) hf (hg.base_lt _)
  have hsize := (sameKeys_fill r.registry id r.fields).size
  unfold Resolved.settle
  split
  · refine hfill.update (fun _ => rfl) (fun _ => rfl) (hfill.field_lt _) fun b h => ?_
    cases h
    rw [hsize]; exact hr
  · refine (hfill.flag r.result).update (fun _ => rfl) (fun _ => rfl)
      ((hfill.flag r.result).field_lt _) fun b h => ?_
    cases h
    rw [(sameKeys_flag _ _).size, hsize]; exact hr

theorem Closed.putType (hg : g.Closed) (s : Shape) (d : Option String) : (g.putType s d).Closed := by
  have h₁ := hg.announce s.name d
  exact (h₁.resolveShape s).settle (fieldShape_resolveShape h₁.toSound s).2
    ((h₁.resolveShape s).lt_size_of_findExpr? (findExpr?_resolveShape _ s)) _

/-- Settling a type changes its entry and, unless it is its own result, makes the result a union. -/
theorem entry_settle {r : Resolved} (hg : r.registry.Sound) (hn : r.registry.findExpr? e = some id)
    (hr : r.registry.findExpr? s.result = some r.result) (x : TypeExpr) :
    (r.settle id).entry x =
      if x = e then { r.registry.entry x with
        fields := r.fields.map r.registry.fieldShape, base := some s.result, isDeclared := true }
      else if x = s.result then { r.registry.entry x with isUnion := true }
      else r.registry.entry x := by
  have hfill := sameKeys_fill r.registry id r.fields
  have hflag := sameKeys_flag (r.registry.fill id r.fields) r.result
  have hb := hg.exprAt_of_findExpr? hr
  by_cases hself : r.result = id
  · have hne : x ≠ e → x ≠ s.result := by
      rw [← hb, hself, hg.exprAt_of_findExpr? hn]; exact fun h => h
    rw [Resolved.settle, if_pos hself,
      entry_setBase (hg.fill id r.fields) (by rw [hfill.findExpr?]; exact hn),
      entry_fill hg hn, hfill.exprAt, hb]
    by_cases hx : x = e
    · simp only [if_pos hx]
    · simp only [if_neg hx, if_neg (hne hx)]
  · have hne : x = e → x ≠ s.result := by
      rintro rfl h
      rw [← h, hn] at hr
      exact hself (Option.some.inj hr).symm
    rw [Resolved.settle, if_neg hself,
      entry_setBase ((hg.fill id r.fields).flag r.result)
        (by rw [hflag.findExpr?, hfill.findExpr?]; exact hn),
      entry_flag (hg.fill id r.fields) (by rw [hfill.findExpr?]; exact hr),
      entry_fill hg hn, hflag.exprAt, hfill.exprAt, hb]
    by_cases hx : x = e
    · simp only [if_pos hx, if_neg (hne hx)]
    · simp only [if_neg hx]

theorem putType_catalogue (hg : g.Closed) (s : Shape) (d : Option String) :
    (g.putType s d).catalogue = (Clause.type s d).apply g.catalogue := by
  have h₁ := hg.announce s.name d
  have hname := (announced_spec hg.toSound s d).1
  have hput : g.putType s d =
      ((g.announce s.name d).2.resolveShape s).settle (g.announce s.name d).1 := rfl
  have hsk := sameKeys_settle ((g.announce s.name d).2.resolveShape s) (g.announce s.name d).1
  refine catalogue_eq (fun x => ?_) (fun x => ?_) ?_
  · rw [hput, hsk.findExpr?, isSome_findExpr?_resolveShape h₁.toSound,
      isSome_findExpr?_announce hg.toSound, or_assoc]
    rfl
  · rw [hput, entry_settle (h₁.toSound.resolveShape s) hname (findExpr?_resolveShape _ s),
      (fieldShape_resolveShape h₁.toSound s).1, entry_resolveShape h₁, entry_announce hg]
    by_cases hx : x = s.name
    · simp only [Clause.apply, if_pos hx, Catalogue.modify, catalogue, Catalogue.hold]
    · simp only [Clause.apply, if_neg hx, Catalogue.modify, catalogue, Catalogue.hold]
  · rw [hput, functions_settle, hsk.functionEntry, functionEntry_resolveShape h₁,
      functionEntry_announce hg]
    rfl

/-! ### Functions and unions -/

theorem isSome_argument (hg : g.Sound) (he : g.findExpr? e = some id) :
    (g.get id).argument.isSome = e.isGeneric := by
  rw [hg.argument_eq]
  cases e with
  | name s => rw [hg.key_of_find? he]; rfl
  | generic outer a =>
    obtain ⟨arg, -, hk⟩ := Option.bind_eq_some_iff.mp he
    rw [hg.key_of_find? hk]; rfl

theorem isNone_argument (hg : g.Sound) (he : g.findExpr? e = some id) :
    (g.get id).argument.isNone = !e.isGeneric := by
  rw [← isSome_argument hg he, Option.not_isSome]

theorem sameKeys_flagResult (g : Registry) (id : TypeId) : SameKeys g (g.flagResult id) := by
  unfold flagResult
  split
  · exact sameKeys_flag g id
  · exact SameKeys.refl g

theorem Closed.flagResult (hg : g.Closed) (id : TypeId) : (g.flagResult id).Closed := by
  unfold Registry.flagResult
  split
  · exact hg.flag id
  · exact hg

theorem entry_flagResult (hg : g.Sound) (he : g.findExpr? e = some id) (x : TypeExpr) :
    (g.flagResult id).entry x = if x = e then
      { g.entry x with isUnion := (g.entry x).isUnion || !(g.entry x).isDeclared && !e.isGeneric }
      else g.entry x := by
  have hd : (g.entry e).isDeclared = (g.get id).isDeclared := by rw [entry_of_findExpr? he]; rfl
  rw [flagResult, ← hd, isNone_argument hg he]
  by_cases hx : x = e
  · subst hx
    rw [if_pos rfl]
    split
    · next h => rw [entry_flag hg he, if_pos rfl, h, Bool.or_true]
    · next h => rw [Bool.eq_false_iff.mpr h, Bool.or_false]
  · rw [if_neg hx]
    split
    · rw [entry_flag hg he, if_neg hx]
    · rfl

theorem Closed.push {f : FunctionRecord} (hg : g.Closed) (hnew : g.functionIndex.lookup f.name = none)
    (ha : ∀ a ∈ f.arguments, a.type < g.size) (hr : f.result < g.size) : (g.push f).Closed where
  toSound := hg.sameKeys (sameKeys_push g f) (hg.filed.push hnew)
  field_lt := hg.field_lt
  base_lt := hg.base_lt
  argument_lt f' hf' := by
    rcases Array.mem_push.mp hf' with h | rfl
    · exact hg.argument_lt f' h
    · exact ha
  result_lt f' hf' := by
    rcases Array.mem_push.mp hf' with h | rfl
    · exact hg.result_lt f' h
    · exact hr

theorem entry_push (g : Registry) (f : FunctionRecord) (x : TypeExpr) :
    (g.push f).entry x = g.entry x := by
  rw [entry, (sameKeys_push g f).findExpr?, (sameKeys_push g f).entryOf]
  rfl

theorem Closed.putFunction {name : String} (hg : g.Closed) (hnew : g.function? name = none) (s : Shape)
    (d : Option String) : (g.putFunction name s d).Closed := by
  have hsize := (sameKeys_flagResult (g.resolveShape s).registry (g.resolveShape s).result).size
  refine ((hg.resolveShape s).flagResult _).push ?_ (fun a ha => ?_) ?_
  · rw [functionIndex_flagResult, (grows_resolveShape g s).functionIndex]
    exact hg.filed.function?_eq_none_iff.mp hnew
  · rw [hsize]; exact (fieldShape_resolveShape hg.toSound s).2 a ha
  · rw [hsize]; exact (hg.resolveShape s).lt_size_of_findExpr? (findExpr?_resolveShape g s)

theorem putFunction_catalogue (hg : g.Closed) (name : String) (s : Shape) (d : Option String) :
    (g.putFunction name s d).catalogue = (Clause.function name s d).apply g.catalogue := by
  have hfind := findExpr?_resolveShape g s
  have hflag := sameKeys_flagResult (g.resolveShape s).registry (g.resolveShape s).result
  have hsk := hflag.trans (sameKeys_push _
    ⟨name, d, (g.resolveShape s).fields, (g.resolveShape s).result⟩)
  refine catalogue_eq (fun x => ?_) (fun x => ?_) ?_
  · rw [putFunction, hsk.findExpr?, isSome_findExpr?_resolveShape hg.toSound]
    rfl
  · rw [putFunction, entry_push, entry_flagResult (hg.toSound.resolveShape s) hfind,
      entry_resolveShape hg]
    rfl
  · rw [putFunction, hsk.functionEntry, push, functions_flagResult, Array.toList_push,
      List.map_append, functionEntry_resolveShape hg, List.map_singleton, functionEntry,
      (fieldShape_resolveShape hg.toSound s).1,
      (hg.toSound.resolveShape s).exprAt_of_findExpr? hfind, ← Multiset.coe_add, Multiset.add_comm]
    rfl

theorem Closed.putUnion (hg : g.Closed) (e : TypeExpr) (d : Option String) : (g.putUnion e d).Closed := by
  have h := (hg.grows (grows_intern g e) (hg.intern e)).flag (g.intern e).1
  exact h.update (fun _ => rfl) (fun _ => rfl) (h.field_lt _) (h.base_lt _)

theorem putUnion_catalogue (hg : g.Closed) (e : TypeExpr) (d : Option String) :
    (g.putUnion e d).catalogue = (Clause.union e d).apply g.catalogue := by
  have hgr := grows_intern g e
  have hfind := findExpr?_intern g e
  have hflag := sameKeys_flag (g.intern e).2 (g.intern e).1
  have hsk := hflag.trans (sameKeys_describe _ (g.intern e).1 d)
  refine catalogue_eq (fun x => ?_) (fun x => ?_) ?_
  · rw [putUnion, hsk.findExpr?, isSome_findExpr?_intern hg.toSound]
    rfl
  · rw [putUnion, entry_describe ((hg.toSound.intern e).flag _) (by rw [hflag.findExpr?]; exact hfind),
      entry_flag (hg.intern e) hfind, entry_of_grows hgr hg (hg.intern e)]
    by_cases hx : x = e
    · simp only [Clause.apply, if_pos hx, Catalogue.modify, catalogue, Catalogue.hold]
    · simp only [Clause.apply, if_neg hx, Catalogue.modify, catalogue, Catalogue.hold]
  · rw [putUnion, hsk.functionEntry]
    exact congrArg _ (functionEntry_of_grows hgr hg (hg.intern e))

theorem forall_mem_functions_iff {name : String} (hg : g.Sound) :
    (∀ f ∈ g.catalogue.functions, f.name ≠ name) ↔ g.function? name = none := by
  rw [Option.eq_none_iff_forall_ne_some]
  simp only [ne_eq, hg.filed.function?_eq_some_iff, not_and]
  simp [catalogue, functionEntry]

theorem fits_type_iff {decl : Declaration} (hg : g.Sound) (hs : decl.shape? = some s) :
    (Clause.type s d).Fits g.catalogue ↔ Admission.checkType decl g = .ok () := by
  simp only [Admission.checkType_eq_ok_iff hg hs, ← status_entry, Entry.isConcrete_status]
  rfl

theorem fits_union_iff {name : String} (he : TypeExpr.parse? name = some e) :
    (Clause.union e d).Fits g.catalogue ↔ Admission.checkUnion name g = .ok () := by
  rw [Admission.checkUnion_eq_ok_iff he, ← status_entry, Entry.isConcrete_status]
  rfl

theorem fits_function_iff {name : String} (hg : g.Sound) :
    (Clause.function name s d).Fits g.catalogue ↔ Admission.checkFunction name g = .ok () :=
  (forall_mem_functions_iff hg).trans Admission.checkFunction_eq_ok_iff.symm

/-- The initial registry says nothing of its types but that they are scalars. -/
theorem get_initial (id : TypeId) :
    (initial.get id).fields = [] ∧ (initial.get id).base = none := by
  rcases Nat.lt_or_ge id initial.size with hid | hid
  · have hall : ∀ id < initial.size,
        (initial.get id).fields = [] ∧ (initial.get id).base = none := by decide
    exact hall id hid
  · rw [get_of_size_le hid]
    exact ⟨rfl, rfl⟩

theorem closed_initial : initial.Closed where
  toSound := Sound.initial
  field_lt id f hf := by rw [(get_initial id).1] at hf; cases hf
  base_lt id b hb := by rw [(get_initial id).2] at hb; cases hb
  argument_lt f hf := by cases (Array.not_mem_empty f hf)
  result_lt f hf := by cases (Array.not_mem_empty f hf)

theorem entry_of_none (h : g.findExpr? e = none) : g.entry e = {} := by
  rw [entry, h, Option.elim_none]

theorem isDeclared_entry_initial (h : initial.findExpr? e = some id) :
    (initial.entry e).isDeclared = true := by
  have hall : ∀ id < initial.size, (initial.get id).isDeclared = true := by decide
  rw [entry_of_findExpr? h]
  exact hall id (Sound.initial.lt_size_of_findExpr? h)

theorem scalarsDeclared_initial : initial.catalogue.ScalarsDeclared := by
  intro e h
  cases he : initial.findExpr? e with
  | none => rw [show initial.catalogue.entry e = {} from entry_of_none he] at h; cases h
  | some id => exact isDeclared_entry_initial he

end Registry

/-! ### Whole items -/

namespace Admission
open Registry
variable {g g' : Registry}

/-- In a closed registry an item is refused, and then no clause of it fits, or its clause fits and is
what the item adds. -/
theorem addItem_cases (hg : g.Closed) (kind : Kind) (i : Item) :
    (∃ c, (addItem kind i).run g = .error c g ∧
      ∀ k, i.clause? kind = some k → ¬ k.Fits g.catalogue) ∨
    ∃ k o g', i.clause? kind = some k ∧ k.Fits g.catalogue ∧ (addItem kind i).run g = .ok o g' ∧
      g'.Closed ∧ g'.catalogue = k.apply g.catalogue := by
  cases i with
  | declaration decl =>
    cases kind with
    | types =>
      rcases addType_cases hg.toSound decl with ⟨hu, hr⟩ | ⟨c, hu, hc, hr⟩ | ⟨s, hu, hs, hc, hr⟩
      · exact .inr ⟨.skip, .passedOver decl.name, g, by simp [Item.clause?, hu], trivial,
          run_bind_ok hr, hg, rfl⟩
      · refine .inl ⟨c, run_bind_error hr, fun k hk hfits => ?_⟩
        simp only [Item.clause?, hu, Bool.false_eq_true, ↓reduceIte, Option.map_eq_some_iff] at hk
        obtain ⟨s, hs, rfl⟩ := hk
        rw [(fits_type_iff hg.toSound hs).mp hfits] at hc
        cases hc
      · exact .inr ⟨.type s decl.docs.description?, .declared, _, by simp [Item.clause?, hu, hs],
          (fits_type_iff hg.toSound hs).mpr hc, run_bind_ok hr, hg.putType s _,
          putType_catalogue hg s _⟩
    | functions =>
      rcases addFunction_cases hg.filed decl with ⟨c, hc, hr⟩ | ⟨s, hs, hc, hr⟩
      · refine .inl ⟨c, run_bind_error hr, fun k hk hfits => ?_⟩
        obtain ⟨s, hs, rfl⟩ := Option.map_eq_some_iff.mp hk
        rcases hc with hc | hc
        · rw [checkTokens_eq_ok_iff.mpr ⟨s, hs⟩] at hc; cases hc
        · rw [(fits_function_iff hg.toSound).mp hfits] at hc; cases hc
      · exact .inr ⟨.function decl.name s decl.docs.description?, .declared, _,
          by simp [Item.clause?, hs], (fits_function_iff hg.toSound).mpr hc, run_bind_ok hr,
          hg.putFunction (checkFunction_eq_ok_iff.mp hc) s _, putFunction_catalogue hg _ s _⟩
  | union name d line =>
    rcases documentUnion_cases hg.toSound name d with ⟨c, hc, hr⟩ | ⟨e, he, hc, hr⟩
    · refine .inl ⟨c, run_bind_error hr, fun k hk hfits => ?_⟩
      obtain ⟨e, he, rfl⟩ := Option.map_eq_some_iff.mp hk
      rcases hc with hc | hc
      · rw [checkToken_eq_ok_iff.mpr ⟨e, he⟩] at hc; cases hc
      · rw [(fits_union_iff he).mp hfits] at hc; cases hc
    · exact .inr ⟨.union e d, .documented, _, by simp [Item.clause?, he],
        (fits_union_iff he).mpr hc, run_bind_ok hr, hg.putUnion e d, putUnion_catalogue hg e d⟩

end Admission

end TypeLang
