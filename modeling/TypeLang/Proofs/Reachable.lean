import TypeLang.Proofs.Readers
import TypeLang.Registry.Admission

/-! # Reachable registries

`Operation` lists everything that can be done to a registry, and `Reachable` says that a registry
comes from the initial one by operations, refused ones among them. What the single changes keep, the
admission of items keeps as well (`Stable.addType` and the like), because it is made of them. So an
invariant of all reachable registries is one that the seven single changes keep. All but the naming of
types and the adding of functions are a `Step` of one record that keeps its identity, that is argument,
name and scalar (`KeepsIdentity`), so an invariant about identities needs a proof for these two alone
(`Stable.of_identity`, from `Stable.of_steps`). -/

namespace TypeLang

section Runs
variable {ε σ α β : Type} {a : EStateM ε σ α} {f : α → EStateM ε σ β} {s s' : σ}

theorem run_bind_ok {x : α} (h : a.run s = .ok x s') : (a >>= f).run s = (f x).run s' := by
  rw [EStateM.run_bind, h]

theorem run_bind_error {e : ε} (h : a.run s = .error e s') : (a >>= f).run s = .error e s' := by
  rw [EStateM.run_bind, h]

theorem run_bind_eq_ok {y : β} (h : (a >>= f).run s = .ok y s') :
    ∃ x s₁, a.run s = .ok x s₁ ∧ (f x).run s₁ = .ok y s' := by
  cases ha : a.run s with
  | ok x s₁ => exact ⟨x, s₁, rfl, by rwa [run_bind_ok ha] at h⟩
  | error e s₁ => rw [run_bind_error ha] at h; cases h

theorem run_bind_eq_error {e : ε} (h : (a >>= f).run s = .error e s') :
    a.run s = .error e s' ∨ ∃ x s₁, a.run s = .ok x s₁ ∧ (f x).run s₁ = .error e s' := by
  cases ha : a.run s with
  | ok x s₁ => exact .inr ⟨x, s₁, rfl, by rwa [run_bind_ok ha] at h⟩
  | error e s₁ => rw [run_bind_error ha] at h; cases h; exact .inl rfl

end Runs

namespace Admission
variable {α β : Type} {g g' : Registry}

/-- The registry that a step leaves behind, refused or not. -/
def after (a : Admission α) (g : Registry) : Registry :=
  match a.run g with
  | .ok _ g' => g'
  | .error _ g' => g'

theorem after_of_ok {a : Admission α} {x : α} (h : a.run g = .ok x g') : a.after g = g' := by
  rw [after, h]

theorem after_of_error {a : Admission α} {e : RegistryError} (h : a.run g = .error e g') :
    a.after g = g' := by
  rw [after, h]

/-- The step leads from registries with `P` to registries with `P`, refused or not. -/
def Keeps (P : Registry → Prop) (a : Admission α) : Prop := ∀ g, P g → P (a.after g)

namespace Keeps
variable {P : Registry → Prop}

theorem pure (x : α) : Keeps P (Pure.pure x : Admission α) := fun _ h => h

theorem bind {a : Admission α} {f : α → Admission β} (ha : Keeps P a) (hf : ∀ x, Keeps P (f x)) :
    Keeps P (a >>= f) := by
  intro g hg
  have ha := ha g hg
  rw [after, EStateM.run_bind]
  cases h : a.run g with
  | ok x g' => rw [after_of_ok h] at ha; exact hf x g' ha
  | error e g' => rw [after_of_error h] at ha; exact ha

theorem change {f : Registry → Except RegistryError Registry}
    (hf : ∀ g g', P g → f g = .ok g' → P g') : Keeps P (change f) := by
  intro g hg
  simp only [after, EStateM.run, Admission.change]
  cases h : f g with
  | ok g' => exact hf g g' hg h
  | error e => exact hg

theorem of_change {f : Registry → Except RegistryError Registry} (h : Keeps P (Admission.change f))
    (hg : P g) (hf : f g = .ok g') : P g' := by
  have h := h g hg
  simp only [after, EStateM.run, Admission.change, hf] at h
  exact h

theorem check (f : Registry → Except RegistryError Unit) : Keeps P (check f) := by
  intro g hg
  simp only [after, EStateM.run, Admission.check]
  cases f g <;> exact hg

end Keeps

/-- `P` is kept by every single change of a registry. -/
structure Stable (P : Registry → Prop) : Prop where
  resolve : ∀ token, Keeps P (Registry.resolve token)
  declare : ∀ token d, Keeps P (Registry.declare token d)
  define : ∀ id fields, Keeps P (change (·.define id fields))
  setBase : ∀ id base, Keeps P (change fun g => .ok (g.setBase id base))
  markUnion : ∀ id, Keeps P (change (·.markUnion id))
  describe : ∀ id d, Keeps P (change fun g => .ok (g.describe id d))
  pushFunction : ∀ f, Keeps P (change (·.addFunction f))

namespace Stable
variable {P : Registry → Prop}

theorem fields (hP : Stable P) (decl : Declaration) (fs : List FieldSpec) :
    Keeps P (fields decl fs) := by
  induction fs with
  | nil => exact .pure _
  | cons f fs ih => exact (hP.resolve f.type).bind fun _ => ih.bind fun _ => .pure _

theorem addType (hP : Stable P) (decl : Declaration) : Keeps P (addType decl) := by
  unfold Admission.addType
  split
  · exact .pure _
  · refine (Keeps.check _).bind fun _ => (hP.declare _ _).bind fun id => ?_
    refine (hP.fields decl _).bind fun fields => (hP.resolve _).bind fun base => ?_
    refine (hP.define id fields).bind fun _ => ?_
    split
    · exact (hP.setBase id base).bind fun _ => .pure _
    · exact (hP.markUnion base).bind fun _ => (hP.setBase id base).bind fun _ => .pure _

theorem markResult (hP : Stable P) (id : TypeId) : Keeps P (change (markResult id)) := by
  refine .change fun g g' hg h => ?_
  unfold Admission.markResult at h
  split at h
  · exact (hP.markUnion id).of_change hg h
  · cases h; exact hg

theorem addFunction (hP : Stable P) (decl : Declaration) : Keeps P (addFunction decl) :=
  (Keeps.check _).bind fun _ => (Keeps.check _).bind fun _ => (hP.fields decl _).bind fun _ =>
    (hP.resolve _).bind fun id => (hP.markResult id).bind fun _ => hP.pushFunction _

theorem documentUnion (hP : Stable P) (name : String) (d : Option String) :
    Keeps P (documentUnion name d) :=
  (Keeps.check _).bind fun _ => (Keeps.check _).bind fun _ => (hP.resolve name).bind fun id =>
    (hP.markUnion id).bind fun _ => (hP.describe id d).bind fun _ => .pure _

theorem addItem (hP : Stable P) (kind : Kind) (i : Item) : Keeps P (addItem kind i) := by
  cases i with
  | declaration decl =>
    cases kind with
    | types =>
      refine (hP.addType decl).bind fun id => ?_
      cases id <;> exact .pure _
    | functions => exact (hP.addFunction decl).bind fun _ => .pure _
  | union name d line => exact (hP.documentUnion name d).bind fun _ => .pure _

end Stable

end Admission

/-! ### Steps of a record -/

/-- A change that leaves alone what a record stands for. -/
structure TypeRecord.KeepsIdentity (f : TypeRecord → TypeRecord) : Prop where
  argument : ∀ r, (f r).argument = r.argument
  name : ∀ r, (f r).name = r.name
  scalar : ∀ r, (f r).scalar = r.scalar

/-- What a single change can do to a record, and when. -/
inductive TypeRecord.Step : TypeRecord → TypeRecord → Prop
  | fill {r : TypeRecord} (fields : List Field) (hd : r.isDeclared = false)
      (hu : r.isUnion = false) : Step r { r with fields, isDeclared := true }
  | flag {r : TypeRecord} (hc : r.isConcrete = false) : Step r { r with isUnion := true }
  | join {r : TypeRecord} (base : TypeId) : Step r { r with base := some base }
  | describe {r : TypeRecord} (description : Option String) : Step r { r with description }

namespace Admission
open Registry TypeRecord
variable {g : Registry} {token : String} {P : Registry → Prop}

/-- What interning keeps, resolving keeps. -/
theorem keeps_resolve (hP : ∀ g e, TypeExpr.parse token = .ok e → P g → P (g.intern e).2) :
    Keeps P (Registry.resolve token) := by
  intro g hg
  rw [after, run_resolve]
  cases hparse : TypeExpr.parse token with
  | ok e => exact hP g e hparse hg
  | error m => exact hg

/-- What naming types keeps, and what every step of a record keeps, is stable. -/
theorem Stable.of_steps
    (hintern : ∀ g token e, TypeExpr.parse token = .ok e → P g → P (g.intern e).2)
    (hupdate : ∀ g id f, KeepsIdentity f → (g.get id).Step (f (g.get id)) → P g → P (g.update id f))
    (hpush : ∀ g f, g.functionIndex.lookup f.name = none → P g → P (g.push f)) : Stable P := by
  have hdescribe : ∀ g id d, P g → P (g.describe id d) := fun g id d hg =>
    hupdate g id _ ⟨fun _ => rfl, fun _ => rfl, fun _ => rfl⟩ (.describe d) hg
  have hresolve : ∀ token, Keeps P (Registry.resolve token) := fun token =>
    keeps_resolve fun g e => hintern g token e
  refine ⟨hresolve, fun token d => ?_, fun id fields => ?_, fun id base => ?_, fun id => ?_,
    fun id d => ?_, fun f => ?_⟩
  · exact (hresolve token).bind fun id => Keeps.bind (fun g => hdescribe g id d) fun _ => .pure _
  · refine .change fun g g' hg h => ?_
    obtain ⟨hd, hu, rfl⟩ := define_eq_ok_iff.mp h
    exact hupdate g id _ ⟨fun _ => rfl, fun _ => rfl, fun _ => rfl⟩ (.fill fields hd hu) hg
  · refine .change fun g g' hg h => ?_
    cases h
    exact hupdate g id _ ⟨fun _ => rfl, fun _ => rfl, fun _ => rfl⟩ (.join base) hg
  · refine .change fun g g' hg h => ?_
    obtain ⟨hc, rfl⟩ := markUnion_eq_ok_iff.mp h
    exact hupdate g id _ ⟨fun _ => rfl, fun _ => rfl, fun _ => rfl⟩ (.flag hc) hg
  · refine .change fun g g' hg h => ?_
    cases h
    exact hdescribe g id d hg
  · refine .change fun g g' hg h => ?_
    obtain ⟨hnew, rfl⟩ := addFunction_eq_ok_iff.mp h
    exact hpush g f hnew hg

/-- What naming types keeps, and what every change keeps that leaves the identity of records alone,
is stable. -/
theorem Stable.of_identity
    (hintern : ∀ g token e, TypeExpr.parse token = .ok e → P g → P (g.intern e).2)
    (hupdate : ∀ g id f, KeepsIdentity f → P g → P (g.update id f))
    (hpush : ∀ g f, g.functionIndex.lookup f.name = none → P g → P (g.push f)) : Stable P :=
  .of_steps hintern (fun g id f hf _ => hupdate g id f hf) hpush

end Admission

/-! ### Operations -/

namespace Registry
open Admission
variable {g g' : Registry}

/-- Something that can be done to a registry: one of the single changes, or the admission of a type,
a function or the documentation of a union. -/
inductive Operation where
  | resolve (token : String)
  | declare (token : String) (description : Option String)
  | define (id : TypeId) (fields : List Field)
  | setBase (id base : TypeId)
  | markUnion (id : TypeId)
  | describe (id : TypeId) (description : Option String)
  | pushFunction (f : FunctionRecord)
  | addType (decl : Declaration)
  | addFunction (decl : Declaration)
  | documentUnion (name : String) (description : Option String)

/-- The registry after an operation, refused or not. -/
def Operation.perform : Operation → Registry → Registry
  | resolve token => (Registry.resolve token).after
  | declare token d => (Registry.declare token d).after
  | define id fields => (change (·.define id fields)).after
  | setBase id base => (change fun g => .ok (g.setBase id base)).after
  | markUnion id => (change (·.markUnion id)).after
  | describe id d => (change fun g => .ok (g.describe id d)).after
  | pushFunction f => (change (·.addFunction f)).after
  | addType decl => (Admission.addType decl).after
  | addFunction decl => (Admission.addFunction decl).after
  | documentUnion name d => (Admission.documentUnion name d).after

/-- The registries that operations lead to from the initial one. -/
inductive Reachable : Registry → Prop
  | initial : Reachable .initial
  | perform {g : Registry} (op : Operation) : Reachable g → Reachable (op.perform g)

theorem perform_of_stable {P : Registry → Prop} (hP : Stable P) (op : Operation) (hg : P g) :
    P (op.perform g) := by
  cases op with
  | resolve token => exact hP.resolve token _ hg
  | declare token d => exact hP.declare token d _ hg
  | define id fields => exact hP.define id fields _ hg
  | setBase id base => exact hP.setBase id base _ hg
  | markUnion id => exact hP.markUnion id _ hg
  | describe id d => exact hP.describe id d _ hg
  | pushFunction f => exact hP.pushFunction f _ hg
  | addType decl => exact hP.addType decl _ hg
  | addFunction decl => exact hP.addFunction decl _ hg
  | documentUnion name d => exact hP.documentUnion name d _ hg

/-- What holds at first and is stable holds in every reachable registry. -/
theorem Reachable.of_stable {P : Registry → Prop} (h₀ : P .initial) (hP : Stable P)
    (hg : g.Reachable) : P g := by
  induction hg with
  | initial => exact h₀
  | perform op _ ih => exact perform_of_stable hP op ih

theorem stable_sound : Stable Sound := by
  refine .of_identity (fun g token e _ hg => hg.intern e) (fun g id f hf hg => ?_) fun g f hnew hg => ?_
  · exact hg.update hf.argument hf.name id
  · exact hg.sameKeys (sameKeys_push g f) (hg.filed.push hnew)

theorem Reachable.sound (hg : g.Reachable) : g.Sound := hg.of_stable Sound.initial stable_sound

end Registry

end TypeLang
