import TypeLang.Proofs.Readers
import TypeLang.Registry.Admission

/-! # What the checks look at

The checks before an admission read every token of the item and look at the status of the types that
it names: declared, a union, a scalar. `shape?` gives a declaration with its tokens read, and
`checkTokens` is the question whether there is one. The status of an expression is that of its
record; growth does not change it (`status_of_grows`), because a placeholder has the status of a
type without a record. -/

namespace TypeLang

/-! ### Declarations with their tokens read -/

/-- A field whose type is read. -/
structure FieldShape where
  name : String
  description : Option String
  type : TypeExpr
deriving DecidableEq, Repr

/-- A declaration whose types are read. -/
structure Shape where
  name : TypeExpr
  fields : List FieldShape
  result : TypeExpr
deriving DecidableEq, Repr

/-- The expression that a token stands for, if it is well formed. -/
def TypeExpr.parse? (token : String) : Option TypeExpr := (parse token).toOption

/-- The field with its type read, under its documentation. -/
def FieldSpec.shape? (docs : DocTags) (f : FieldSpec) : Option FieldShape :=
  (TypeExpr.parse? f.type).map fun e => ⟨f.name, docs.field? f.name, e⟩

/-- The declaration with its types read, if all of them are well formed. -/
def Declaration.shape? (decl : Declaration) : Option Shape := do
  let name ← TypeExpr.parse? decl.name
  let fields ← decl.fields.mapM (FieldSpec.shape? decl.docs)
  let result ← TypeExpr.parse? decl.result
  pure ⟨name, fields, result⟩

theorem TypeExpr.parse?_eq_some_iff {token : String} {e : TypeExpr} :
    parse? token = some e ↔ parse token = .ok e := by
  unfold parse?
  cases parse token <;> simp [Except.toOption]

theorem Declaration.shape?_eq_some_iff {decl : Declaration} {s : Shape} :
    decl.shape? = some s ↔ TypeExpr.parse? decl.name = some s.name ∧
      decl.fields.mapM (FieldSpec.shape? decl.docs) = some s.fields ∧
      TypeExpr.parse? decl.result = some s.result := by
  obtain ⟨name, fields, result⟩ := s
  simp only [shape?, Option.bind_eq_bind, Option.bind_eq_some_iff, Option.pure_def,
    Option.some.injEq, Shape.mk.injEq]
  constructor
  · rintro ⟨_, h₁, _, h₂, _, h₃, rfl, rfl, rfl⟩; exact ⟨h₁, h₂, h₃⟩
  · rintro ⟨h₁, h₂, h₃⟩; exact ⟨_, h₁, _, h₂, _, h₃, rfl, rfl, rfl⟩

namespace Registry
variable {g g' : Registry} {token : String} {e : TypeExpr}

theorem checkToken_eq_ok_iff : checkToken token = .ok () ↔ ∃ e, TypeExpr.parse? token = some e := by
  rw [checkToken_eq, TypeExpr.parse?]
  cases TypeExpr.parse token <;> simp [Except.toOption]

theorem run_resolve_of_parse? (h : TypeExpr.parse? token = some e) (g : Registry) :
    (resolve token).run g = .ok (g.intern e).1 (g.intern e).2 := by
  rw [run_resolve, TypeExpr.parse?_eq_some_iff.mp h]

theorem lookup?_of_parse? (h : TypeExpr.parse? token = some e) : g.lookup? token = g.findExpr? e :=
  lookup?_of_parse (TypeExpr.parse?_eq_some_iff.mp h)

/-- Interns the types of fields, from left to right. -/
def internFields (g : Registry) : List FieldShape → List Field × Registry
  | [] => ([], g)
  | f :: fs =>
    let (type, g₁) := g.intern f.type
    let (rest, g₂) := g₁.internFields fs
    (⟨f.name, f.description, type⟩ :: rest, g₂)

theorem grows_internFields (g : Registry) (fs : List FieldShape) : Grows g (g.internFields fs).2 := by
  induction fs generalizing g with
  | nil => exact Grows.refl g
  | cons f fs ih => exact (grows_intern g f.type).trans (ih _)

theorem Sound.internFields (hg : g.Sound) (fs : List FieldShape) : (g.internFields fs).2.Sound := by
  induction fs generalizing g with
  | nil => exact hg
  | cons f fs ih => exact ih (hg.intern f.type)

end Registry

namespace Admission
open Registry
variable {decl : Declaration} {s : Shape} {g : Registry}

theorem forM_checkToken_eq_ok_iff (docs : DocTags) (fs : List FieldSpec) :
    fs.forM (fun f => checkToken f.type) = .ok () ↔ ∃ es, fs.mapM (FieldSpec.shape? docs) = some es := by
  induction fs with
  | nil => simp [pure, Except.pure]
  | cons f fs ih =>
    cases hf : TypeExpr.parse? f.type with
    | none =>
      have hc : checkToken f.type ≠ .ok () := fun h => by
        obtain ⟨e, he⟩ := checkToken_eq_ok_iff.mp h
        rw [hf] at he; cases he
      cases h : checkToken f.type with
      | ok u => exact absurd h hc
      | error m => simp [h, FieldSpec.shape?, hf, bind, Except.bind]
    | some e =>
      have hc := checkToken_eq_ok_iff.mpr ⟨e, hf⟩
      show (checkToken f.type >>= fun _ => fs.forM fun f => checkToken f.type) = .ok () ↔ _
      rw [hc]
      show fs.forM (fun f => checkToken f.type) = .ok () ↔ _
      rw [ih]
      simp only [List.mapM_cons, FieldSpec.shape?, hf, Option.map_some, Option.bind_eq_bind, Option.bind_some,
        Option.pure_def, Option.bind_eq_some_iff, Option.some.injEq]
      constructor
      · rintro ⟨es, hes⟩; exact ⟨_, es, hes, rfl⟩
      · rintro ⟨_, es, hes, -⟩; exact ⟨es, hes⟩

theorem checkTokens_eq_ok_iff : checkTokens decl = .ok () ↔ ∃ s, decl.shape? = some s := by
  simp only [checkTokens, Declaration.shape?_eq_some_iff]
  cases hn : checkToken decl.name with
  | error m =>
    refine ⟨fun h => (by cases h), fun ⟨s, h, _⟩ => ?_⟩
    rw [checkToken_eq_ok_iff.mpr ⟨_, h⟩] at hn; cases hn
  | ok u =>
    cases hr : checkToken decl.result with
    | error m =>
      refine ⟨fun h => (by cases h), fun ⟨s, _, _, h⟩ => ?_⟩
      rw [checkToken_eq_ok_iff.mpr ⟨_, h⟩] at hr; cases hr
    | ok u =>
      obtain ⟨n, hn⟩ := checkToken_eq_ok_iff.mp hn
      obtain ⟨r, hr⟩ := checkToken_eq_ok_iff.mp hr
      refine (forM_checkToken_eq_ok_iff decl.docs decl.fields).trans ⟨?_, ?_⟩
      · rintro ⟨es, hes⟩; exact ⟨⟨n, es, r⟩, hn, hes, hr⟩
      · rintro ⟨s, -, hes, -⟩; exact ⟨s.fields, hes⟩

theorem run_fields {fs : List FieldSpec} {es : List FieldShape}
    (h : fs.mapM (FieldSpec.shape? decl.docs) = some es) (g : Registry) :
    (fields decl fs).run g = .ok (g.internFields es).1 (g.internFields es).2 := by
  induction fs generalizing es g with
  | nil =>
    cases h
    rfl
  | cons f fs ih =>
    simp only [List.mapM_cons, Option.bind_eq_bind, Option.bind_eq_some_iff, Option.pure_def,
      Option.some.injEq] at h
    obtain ⟨e, he, es, hes, rfl⟩ := h
    obtain ⟨type, ht, rfl⟩ := Option.map_eq_some_iff.mp he
    rw [fields, EStateM.run_bind, run_resolve_of_parse? ht]
    show ((fields decl fs) >>= _).run _ = _
    rw [EStateM.run_bind, ih hes]
    rfl

end Admission

/-! ### The status of a type -/

/-- What the checks want to know of a type. -/
structure Status where
  isDeclared : Bool := false
  isUnion : Bool := false
  isScalar : Bool := false
deriving DecidableEq, Repr

/-- Whether a type of this status has a declaration of its own. -/
def Status.isConcrete (s : Status) : Bool := s.isDeclared && !s.isScalar

/-- The status of a record. -/
def TypeRecord.status (r : TypeRecord) : Status := ⟨r.isDeclared, r.isUnion, r.scalar.isSome⟩

theorem TypeRecord.isConcrete_status (r : TypeRecord) : r.status.isConcrete = r.isConcrete := by
  cases h : r.scalar <;> simp [status, Status.isConcrete, isConcrete, h]

theorem TypeRecord.IsPlaceholder.status {r : TypeRecord} (h : r.IsPlaceholder) : r.status = {} := by
  rw [h]; rfl

namespace Registry
variable {g g' : Registry} {id : TypeId} {e : TypeExpr}

/-- The status of a type, that of a placeholder if it has no record. -/
def status (g : Registry) (e : TypeExpr) : Status :=
  (g.findExpr? e).elim {} fun id => (g.get id).status

theorem status_of_findExpr? (h : g.findExpr? e = some id) : g.status e = (g.get id).status := by
  rw [status, h, Option.elim_some]

/-- What is read off the record of an expression, with `b` for a type without one, does not change
when only placeholders come, which read as `b`. -/
theorem Grows.elim_findExpr? {β : Type} {b : β} {v v' : TypeId → β} (h : Grows g g') (hg : g.Sound)
    (hg' : g'.Sound) (hold : ∀ id < g.size, v' id = v id) (hnew : ∀ id, g.size ≤ id → v' id = b)
    (e : TypeExpr) : (g'.findExpr? e).elim b v' = (g.findExpr? e).elim b v := by
  cases he : g.findExpr? e with
  | some id =>
    rw [h.findExpr? he]
    exact hold id (hg.lt_size_of_findExpr? he)
  | none =>
    cases he' : g'.findExpr? e with
    | none => rfl
    | some id =>
      refine hnew id (Nat.le_of_not_lt fun hid => ?_)
      have hexpr := h.exprAt hg hg' hid
      rw [hg'.exprAt_of_findExpr? he'] at hexpr
      rw [hexpr, hg.findExpr?_exprAt hid] at he
      cases he

theorem status_of_grows (h : Grows g g') (hg : g.Sound) (hg' : g'.Sound) (e : TypeExpr) :
    g'.status e = g.status e :=
  h.elim_findExpr? hg hg' (fun id hid => by rw [h.kept id hid])
    (fun id hid => (h.fresh id hid).status) e

theorem status_update {f : TypeRecord → TypeRecord} (ha : ∀ r, (f r).argument = r.argument)
    (hn : ∀ r, (f r).name = r.name) (hs : ∀ r, (f r).status = r.status) (id : TypeId)
    (e : TypeExpr) : (g.update id f).status e = g.status e := by
  rw [status, (sameKeys_update g id f ha hn).findExpr?, status]
  congr 1
  funext j
  exact map_get_update hs g id j

theorem status_describe (g : Registry) (id : TypeId) (d : Option String) (e : TypeExpr) :
    (g.describe id d).status e = g.status e :=
  status_update (f := fun r => { r with description := d }) (fun _ => rfl) (fun _ => rfl)
    (fun _ => rfl) id e

end Registry

namespace Admission
open Registry
variable {decl : Declaration} {s : Shape} {g : Registry} {token : String} {e : TypeExpr}

theorem checkUnion_eq_ok_iff (h : TypeExpr.parse? token = some e) :
    checkUnion token g = .ok () ↔ (g.status e).isConcrete = false := by
  rw [checkUnion, lookup?_of_parse? h, status]
  cases g.findExpr? e with
  | none => simp [Status.isConcrete]
  | some id =>
    simp only [Option.elim_some, TypeRecord.isConcrete_status]
    cases (g.get id).isConcrete <;> simp

theorem checkName_eq_ok_iff (h : TypeExpr.parse? token = some e) :
    checkName token g = .ok () ↔ (g.status e).isDeclared = false ∧ (g.status e).isUnion = false := by
  rw [checkName, lookup?_of_parse? h, status]
  cases g.findExpr? e with
  | none => simp
  | some id =>
    simp only [Option.elim_some, TypeRecord.status]
    cases (g.get id).isDeclared <;> cases (g.get id).isUnion <;> simp

/-- When a type declaration passes the checks. Two types without a record are not told apart by
their places, but a type without a record is no concrete one either. -/
theorem checkType_eq_ok_iff (hg : g.Sound) (hs : decl.shape? = some s) :
    checkType decl g = .ok () ↔ ((g.status s.name).isDeclared = false ∧
      (g.status s.name).isUnion = false) ∧
      (s.result ≠ s.name → (g.status s.result).isConcrete = false) := by
  obtain ⟨hn, -, hr⟩ := Declaration.shape?_eq_some_iff.mp hs
  simp only [checkType, checkTokens_eq_ok_iff.mpr ⟨s, hs⟩]
  show (checkName decl.name g >>= fun _ => _) = .ok () ↔ _
  cases hc : checkName decl.name g with
  | error m =>
    refine ⟨fun h => (by cases h), fun h => ?_⟩
    rw [(checkName_eq_ok_iff hn).mpr h.1] at hc
    cases hc
  | ok u =>
    rw [← checkName_eq_ok_iff hn, hc, lookup?_of_parse? hr, lookup?_of_parse? hn]
    show (if g.findExpr? s.result = g.findExpr? s.name then _ else checkUnion decl.result g) = .ok () ↔ _
    split
    · next heq =>
      refine ⟨fun _ => ⟨rfl, fun hne => ?_⟩, fun _ => rfl⟩
      cases hf : g.findExpr? s.result with
      | none => rw [status, hf]; rfl
      | some id =>
        have h₁ := hg.exprAt_of_findExpr? hf
        have h₂ := hg.exprAt_of_findExpr? (heq ▸ hf)
        exact absurd (h₁.symm.trans h₂) hne
    · next hne =>
      rw [checkUnion_eq_ok_iff hr]
      refine ⟨fun h => ⟨rfl, fun _ => h⟩, fun h => h.2 fun heq => hne (by rw [heq])⟩

end Admission

end TypeLang
