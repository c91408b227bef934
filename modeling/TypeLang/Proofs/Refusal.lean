import TypeLang.Proofs.Checks
import TypeLang.Proofs.Reachable

/-! # A refused item leaves no trace

`putType`, `putFunction` and `putUnion` carry an admission out without any check. In a sound registry
the checks that stand before an admission rule out every later refusal, although they look at the
registry as it is before the types of the item get their records: what they look at is the status of
types, and naming types does not change it. So an admission is refused by its checks, in an untouched
registry, or carried out to the end (`addType_cases`, `addFunction_cases`, `documentUnion_cases`). -/

namespace TypeLang

namespace Registry
variable {g g' : Registry} {id base : TypeId} {s : Shape} {e : TypeExpr}

theorem define_of_status (hd : (g.get id).status.isDeclared = false)
    (hu : (g.get id).status.isUnion = false) (fields : List Field) :
    g.define id fields = .ok (g.fill id fields) :=
  define_eq_ok_iff.mpr ⟨hd, hu, rfl⟩

theorem markUnion_of_status (h : (g.get id).status.isConcrete = false) :
    g.markUnion id = .ok (g.flag id) :=
  markUnion_eq_ok_iff.mpr ⟨TypeRecord.isConcrete_status _ ▸ h, rfl⟩

/-- The record that interning leads to has the status that the type had before. -/
theorem status_get_intern (hg : g.Sound) (e : TypeExpr) :
    ((g.intern e).2.get (g.intern e).1).status = g.status e := by
  rw [← status_of_findExpr? (findExpr?_intern g e)]
  exact status_of_grows (grows_intern g e) hg (hg.intern e) e

/-! ### Admissions without checks -/

/-- Gives a type its record and describes it. -/
def announce (g : Registry) (e : TypeExpr) (d : Option String) : TypeId × Registry :=
  let (id, g₁) := g.intern e
  (id, g₁.describe id d)

/-- The fields and the result of a declaration by their places, and the registry that has these. -/
structure Resolved where
  fields : List Field
  result : TypeId
  registry : Registry

/-- Gives the types of the fields and of the result of a declaration their records. -/
def resolveShape (g : Registry) (s : Shape) : Resolved :=
  let (fields, g₁) := g.internFields s.fields
  let (result, g₂) := g₁.intern s.result
  ⟨fields, result, g₂⟩

/-- Fills in the declared type and makes the result a union, unless it is the type itself. -/
def Resolved.settle (r : Resolved) (id : TypeId) : Registry :=
  let g := r.registry.fill id r.fields
  (if r.result = id then g else g.flag r.result).setBase id r.result

/-- Carries a type declaration out. -/
def putType (g : Registry) (s : Shape) (d : Option String) : Registry :=
  let (id, g₁) := g.announce s.name d
  (g₁.resolveShape s).settle id

/-- Makes a result a union, unless it is declared or generic. -/
def flagResult (g : Registry) (id : TypeId) : Registry :=
  if !(g.get id).isDeclared && (g.get id).argument.isNone then g.flag id else g

/-- Carries a function declaration out. -/
def putFunction (g : Registry) (name : String) (s : Shape) (d : Option String) : Registry :=
  let r := g.resolveShape s
  (r.registry.flagResult r.result).push ⟨name, d, r.fields, r.result⟩

/-- Carries the documentation of a union out. -/
def putUnion (g : Registry) (e : TypeExpr) (d : Option String) : Registry :=
  let (id, g₁) := g.intern e
  (g₁.flag id).describe id d

theorem Sound.announce (hg : g.Sound) (e : TypeExpr) (d : Option String) : (g.announce e d).2.Sound :=
  (hg.intern e).describe _ d

theorem findExpr?_announce (g : Registry) (e : TypeExpr) (d : Option String) :
    (g.announce e d).2.findExpr? e = some (g.announce e d).1 :=
  ((sameKeys_describe _ _ _).findExpr? e).trans (findExpr?_intern g e)

theorem status_announce (hg : g.Sound) (e : TypeExpr) (d : Option String) (x : TypeExpr) :
    (g.announce e d).2.status x = g.status x :=
  (status_describe _ _ _ _).trans (status_of_grows (grows_intern g e) hg (hg.intern e) x)

theorem grows_resolveShape (g : Registry) (s : Shape) : Grows g (g.resolveShape s).registry :=
  (grows_internFields g s.fields).trans (grows_intern _ s.result)

theorem Sound.resolveShape (hg : g.Sound) (s : Shape) : (g.resolveShape s).registry.Sound :=
  (hg.internFields s.fields).intern s.result

theorem findExpr?_resolveShape (g : Registry) (s : Shape) :
    (g.resolveShape s).registry.findExpr? s.result = some (g.resolveShape s).result :=
  findExpr?_intern _ _

/-- In the registry in which a type declaration is settled, its name and its result have the places
at hand, and every type has the status that it had before. -/
theorem announced_spec (hg : g.Sound) (s : Shape) (d : Option String) :
    ((g.announce s.name d).2.resolveShape s).registry.findExpr? s.name =
        some (g.announce s.name d).1 ∧
      (((g.announce s.name d).2.resolveShape s).result = (g.announce s.name d).1 ↔
        s.result = s.name) ∧
      ∀ x, ((g.announce s.name d).2.resolveShape s).registry.status x = g.status x := by
  have h₁ := hg.announce s.name d
  have hgr := grows_resolveShape (g.announce s.name d).2 s
  have hname := hgr.findExpr? (findExpr?_announce g s.name d)
  have hresult := findExpr?_resolveShape (g.announce s.name d).2 s
  refine ⟨hname, ⟨fun h => ?_, fun h => ?_⟩, fun x => ?_⟩
  · rw [h] at hresult
    rw [← (h₁.resolveShape s).exprAt_of_findExpr? hresult,
      (h₁.resolveShape s).exprAt_of_findExpr? hname]
  · rw [h, hname] at hresult
    exact (Option.some.inj hresult).symm
  · rw [status_of_grows hgr h₁ (h₁.resolveShape s), status_announce hg]

/-- After the checks the declared type can be defined, and the result, unless it is the type itself,
can become a union. -/
theorem settle_steps (hg : g.Sound) (d : Option String)
    (hn : (g.status s.name).isDeclared = false ∧ (g.status s.name).isUnion = false)
    (hr : s.result ≠ s.name → (g.status s.result).isConcrete = false) :
    let id := (g.announce s.name d).1
    let r := (g.announce s.name d).2.resolveShape s
    r.registry.define id r.fields = .ok (r.registry.fill id r.fields) ∧
      (r.result ≠ id →
        (r.registry.fill id r.fields).markUnion r.result =
          .ok ((r.registry.fill id r.fields).flag r.result)) := by
  intro id r
  obtain ⟨hname, hself, hstatus⟩ := announced_spec hg s d
  have hsound : r.registry.Sound := (hg.announce s.name d).resolveShape s
  have hid : (r.registry.get id).status = g.status s.name := by
    rw [← status_of_findExpr? hname, hstatus]
  refine ⟨define_of_status (by rw [hid]; exact hn.1) (by rw [hid]; exact hn.2) _, fun hne => ?_⟩
  refine markUnion_of_status ?_
  -- filling the declared type in leaves the record of its result alone
  rw [fill, get_update _ (hsound.lt_size_of_findExpr? hname), if_neg hne,
    ← status_of_findExpr? (findExpr?_resolveShape _ s), hstatus]
  exact hr fun h => hne (hself.mpr h)

theorem functions_flagResult (g : Registry) (id : TypeId) :
    (g.flagResult id).functions = g.functions := by
  unfold flagResult
  split <;> rfl

theorem functionIndex_flagResult (g : Registry) (id : TypeId) :
    (g.flagResult id).functionIndex = g.functionIndex := by
  unfold flagResult
  split <;> rfl

end Registry

namespace Admission
open Registry
variable {decl : Declaration} {s : Shape} {g g' : Registry} {name : String} {e : TypeExpr}
  {d : Option String}

/-! ### What an admission can do -/

theorem run_check_ok {f : Registry → Except RegistryError Unit} (h : f g = .ok ()) :
    (check f).run g = .ok () g := by
  simp only [EStateM.run, check, h]

theorem run_check_error {f : Registry → Except RegistryError Unit} {c : RegistryError}
    (h : f g = .error c) : (check f).run g = .error c g := by
  simp only [EStateM.run, check, h]

theorem run_change_ok {f : Registry → Except RegistryError Registry} (h : f g = .ok g') :
    (change f).run g = .ok () g' := by
  simp only [EStateM.run, change, h]

theorem run_resolveShape {α : Type} (hs : decl.shape? = some s) (k : List Field → TypeId → Admission α) :
    (do let fields ← fields decl decl.fields
        let result ← Registry.resolve decl.result
        k fields result : Admission α).run g =
      (k (g.resolveShape s).fields (g.resolveShape s).result).run (g.resolveShape s).registry := by
  obtain ⟨-, hf, hr⟩ := Declaration.shape?_eq_some_iff.mp hs
  rw [run_bind_ok (run_fields hf g)]
  exact run_bind_ok (run_resolve_of_parse? hr _)

theorem run_addType_of_check (hg : g.Sound) (hu : isScalarUnion decl.result = false)
    (hs : decl.shape? = some s) (hc : checkType decl g = .ok ()) :
    (addType decl).run g = .ok (some (g.announce s.name decl.docs.description?).1)
      (g.putType s decl.docs.description?) := by
  obtain ⟨hn, -, -⟩ := Declaration.shape?_eq_some_iff.mp hs
  obtain ⟨hname, hresult⟩ := (checkType_eq_ok_iff hg hs).mp hc
  obtain ⟨hdef, hmark⟩ := settle_steps hg decl.docs.description? hname hresult
  have hdeclare : (Registry.declare decl.name decl.docs.description?).run g =
      .ok (g.announce s.name decl.docs.description?).1
        (g.announce s.name decl.docs.description?).2 :=
    run_bind_ok (run_resolve_of_parse? hn g)
  have hput : g.putType s decl.docs.description? =
      ((g.announce s.name decl.docs.description?).2.resolveShape s).settle
        (g.announce s.name decl.docs.description?).1 := rfl
  rw [hput]
  set id := (g.announce s.name decl.docs.description?).1
  set g₁ := (g.announce s.name decl.docs.description?).2
  unfold addType
  rw [if_neg (by rw [hu]; exact Bool.false_ne_true), run_bind_ok (run_check_ok hc),
    run_bind_ok hdeclare, run_resolveShape hs, run_bind_ok (run_change_ok hdef)]
  by_cases hb : (g₁.resolveShape s).result = id
  · rw [if_pos hb, Resolved.settle, if_pos hb]
    rfl
  · rw [if_neg hb, run_bind_ok (run_change_ok (hmark hb)), Resolved.settle, if_neg hb]
    rfl

/-- A type declaration is passed over, refused by its checks, or carried out. -/
theorem addType_cases (hg : g.Sound) (decl : Declaration) :
    (isScalarUnion decl.result = true ∧ (addType decl).run g = .ok none g) ∨
    (∃ c, isScalarUnion decl.result = false ∧ checkType decl g = .error c ∧
      (addType decl).run g = .error c g) ∨
    ∃ s, isScalarUnion decl.result = false ∧ decl.shape? = some s ∧ checkType decl g = .ok () ∧
      (addType decl).run g = .ok (some (g.announce s.name decl.docs.description?).1)
        (g.putType s decl.docs.description?) := by
  cases hu : isScalarUnion decl.result with
  | true => exact .inl ⟨rfl, by rw [addType, hu, if_pos rfl]; rfl⟩
  | false =>
    refine .inr ?_
    cases hc : checkType decl g with
    | error c =>
      refine .inl ⟨c, rfl, rfl, ?_⟩
      rw [addType, hu, if_neg Bool.false_ne_true]
      exact run_bind_error (run_check_error hc)
    | ok u =>
      have ht : checkTokens decl = .ok () := by
        unfold checkType at hc
        cases ht : checkTokens decl with
        | ok u => rfl
        | error c => rw [ht] at hc; cases hc
      obtain ⟨s, hs⟩ := checkTokens_eq_ok_iff.mp ht
      exact .inr ⟨s, rfl, hs, rfl, run_addType_of_check hg hu hs hc⟩

theorem markResult_eq_ok (id : TypeId) (g : Registry) : markResult id g = .ok (g.flagResult id) := by
  unfold markResult flagResult
  split
  · next h =>
    simp only [Bool.and_eq_true, Bool.not_eq_true'] at h
    refine markUnion_of_status ?_
    simp only [TypeRecord.status, Status.isConcrete, h.1, Bool.false_and]
  · rfl

theorem checkFunction_eq_ok_iff : checkFunction name g = .ok () ↔ g.function? name = none := by
  unfold checkFunction
  cases g.function? name <;> simp

theorem run_addFunction_of_check (hf : g.Filed) (hs : decl.shape? = some s)
    (hc : checkFunction decl.name g = .ok ()) :
    (addFunction decl).run g = .ok () (g.putFunction decl.name s decl.docs.description?) := by
  have hnew : ((g.resolveShape s).registry.flagResult (g.resolveShape s).result).functionIndex.lookup
      decl.name = none := by
    rw [functionIndex_flagResult, (grows_resolveShape g s).functionIndex]
    exact hf.function?_eq_none_iff.mp (checkFunction_eq_ok_iff.mp hc)
  rw [addFunction, run_bind_ok (run_check_ok (checkTokens_eq_ok_iff.mpr ⟨s, hs⟩)),
    run_bind_ok (run_check_ok hc), run_resolveShape hs,
    run_bind_ok (run_change_ok (markResult_eq_ok _ _))]
  exact run_change_ok (addFunction_eq_ok_iff.mpr ⟨hnew, rfl⟩)

/-- A function declaration is refused by its checks or carried out. -/
theorem addFunction_cases (hf : g.Filed) (decl : Declaration) :
    (∃ c, (checkTokens decl = .error c ∨ checkFunction decl.name g = .error c) ∧
      (addFunction decl).run g = .error c g) ∨
    ∃ s, decl.shape? = some s ∧ checkFunction decl.name g = .ok () ∧
      (addFunction decl).run g = .ok () (g.putFunction decl.name s decl.docs.description?) := by
  cases ht : checkTokens decl with
  | error c =>
    exact .inl ⟨c, .inl rfl, by rw [addFunction]; exact run_bind_error (run_check_error ht)⟩
  | ok u =>
    obtain ⟨s, hs⟩ := checkTokens_eq_ok_iff.mp ht
    cases hc : checkFunction decl.name g with
    | error c =>
      refine .inl ⟨c, .inr rfl, ?_⟩
      rw [addFunction, run_bind_ok (run_check_ok ht)]
      exact run_bind_error (run_check_error hc)
    | ok u => exact .inr ⟨s, hs, rfl, run_addFunction_of_check hf hs hc⟩

theorem run_documentUnion_of_check (hg : g.Sound) (he : TypeExpr.parse? name = some e)
    (hc : checkUnion name g = .ok ()) :
    (documentUnion name d).run g = .ok (g.intern e).1 (g.putUnion e d) := by
  have hmark : (g.intern e).2.markUnion (g.intern e).1 = .ok ((g.intern e).2.flag (g.intern e).1) := by
    refine markUnion_of_status ?_
    rw [status_get_intern hg]
    exact (checkUnion_eq_ok_iff he).mp hc
  rw [documentUnion, run_bind_ok (run_check_ok (checkToken_eq_ok_iff.mpr ⟨e, he⟩)),
    run_bind_ok (run_check_ok hc), run_bind_ok (run_resolve_of_parse? he g), run_bind_ok (run_change_ok hmark)]
  rfl

/-- The documentation of a union is refused by its checks or carried out. -/
theorem documentUnion_cases (hg : g.Sound) (name : String) (d : Option String) :
    (∃ c, (checkToken name = .error c ∨ checkUnion name g = .error c) ∧
      (documentUnion name d).run g = .error c g) ∨
    ∃ e, TypeExpr.parse? name = some e ∧ checkUnion name g = .ok () ∧
      (documentUnion name d).run g = .ok (g.intern e).1 (g.putUnion e d) := by
  cases ht : checkToken name with
  | error c =>
    exact .inl ⟨c, .inl rfl, by rw [documentUnion]; exact run_bind_error (run_check_error ht)⟩
  | ok u =>
    obtain ⟨e, he⟩ := checkToken_eq_ok_iff.mp ht
    cases hc : checkUnion name g with
    | error c =>
      refine .inl ⟨c, .inr rfl, ?_⟩
      rw [documentUnion, run_bind_ok (run_check_ok ht)]
      exact run_bind_error (run_check_error hc)
    | ok u => exact .inr ⟨e, he, rfl, run_documentUnion_of_check hg he hc⟩

/-- In a reachable registry a refused item changes nothing, nor does a declaration that is passed
over, and what passes the checks is admitted. -/
theorem refused_unchanged (hg : g.Reachable) :
    (∀ decl c g', (addType decl).run g = .error c g' → g' = g) ∧
    (∀ decl g', (addType decl).run g = .ok none g' → g' = g) ∧
    (∀ decl c g', (addFunction decl).run g = .error c g' → g' = g) ∧
    (∀ name d c g', (documentUnion name d).run g = .error c g' → g' = g) ∧
    (∀ decl, isScalarUnion decl.result = false → checkType decl g = .ok () →
      ∃ id g', (addType decl).run g = .ok (some id) g') ∧
    (∀ decl, checkTokens decl = .ok () → checkFunction decl.name g = .ok () →
      ∃ g', (addFunction decl).run g = .ok () g') ∧
    ∀ name d, checkToken name = .ok () → checkUnion name g = .ok () →
      ∃ id g', (documentUnion name d).run g = .ok id g' := by
  have hs := hg.sound
  refine ⟨?_, ?_, ?_, ?_, ?_, ?_, ?_⟩
  · intro decl c g' h
    rcases addType_cases hs decl with ⟨-, hr⟩ | ⟨c', -, -, hr⟩ | ⟨s, -, -, -, hr⟩ <;>
      rw [hr] at h <;> cases h
    rfl
  · intro decl g' h
    rcases addType_cases hs decl with ⟨-, hr⟩ | ⟨c', -, -, hr⟩ | ⟨s, -, -, -, hr⟩ <;>
      rw [hr] at h <;> cases h
    rfl
  · intro decl c g' h
    rcases addFunction_cases hs.filed decl with ⟨c', -, hr⟩ | ⟨s, -, -, hr⟩ <;> rw [hr] at h <;> cases h
    rfl
  · intro name d c g' h
    rcases documentUnion_cases hs name d with ⟨c', -, hr⟩ | ⟨e, -, -, hr⟩ <;>
      rw [hr] at h <;> cases h
    rfl
  · intro decl hu hc
    rcases addType_cases hs decl with ⟨hu', -⟩ | ⟨c', -, hc', -⟩ | ⟨s, -, -, -, hr⟩
    · rw [hu] at hu'; cases hu'
    · rw [hc] at hc'; cases hc'
    · exact ⟨_, _, hr⟩
  · intro decl ht hc
    obtain ⟨s, hshape⟩ := checkTokens_eq_ok_iff.mp ht
    exact ⟨_, run_addFunction_of_check hs.filed hshape hc⟩
  · intro name d ht hc
    obtain ⟨e, he⟩ := checkToken_eq_ok_iff.mp ht
    exact ⟨_, _, run_documentUnion_of_check hs he hc⟩

/-- The second declaration of a type, whose field and result have no records yet. -/
theorem refused_unchanged_redeclared :
    (Operation.perform (.addType ⟨⟨"a", [], "A"⟩, 1, {}⟩) .initial).Reachable ∧
      (addType ⟨⟨"a", [⟨"x", "vector<ghost>", 3⟩], "B"⟩, 3, {}⟩).run
          (Operation.perform (.addType ⟨⟨"a", [], "A"⟩, 1, {}⟩) .initial) =
        .error (.declaredTwice "a")
          (Operation.perform (.addType ⟨⟨"a", [], "A"⟩, 1, {}⟩) .initial) := by
  have hg := Reachable.initial.perform (.addType ⟨⟨"a", [], "A"⟩, 1, {}⟩)
  have hr : ∃ g', (addType ⟨⟨"a", [⟨"x", "vector<ghost>", 3⟩], "B"⟩, 3, {}⟩).run
      (Operation.perform (.addType ⟨⟨"a", [], "A"⟩, 1, {}⟩) .initial) =
        .error (.declaredTwice "a") g' := ⟨_, by with_unfolding_all rfl⟩
  obtain ⟨g', hr⟩ := hr
  refine ⟨hg, ?_⟩
  rw [hr, (refused_unchanged hg).1 _ _ _ hr]

end Admission

end TypeLang
