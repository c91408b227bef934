import TypeLang.Proofs.TypeIdentity

/-! # The life of a record

`Persists g g'`: the records of `g` are in `g'` at their places, with the same identity, with every
flag that was set and, once they are declared, with the same fields; and the functions of `g` come
first in `g'`. Every step of a record is of this kind (`Step.persists`), so every run of operations is.
`Coherent` says what a record is like in between: fields come with the declaration, and declarations
and unions keep apart because each of `define` and `markUnion` looks for what the other has set.
Scalars are declared from the start, so that nothing gives them fields, and only they can be
both. -/

namespace TypeLang

namespace TypeRecord
variable {r r' r'' : TypeRecord}

/-- What is kept of a record for good. -/
structure Persists (r r' : TypeRecord) : Prop where
  argument : r'.argument = r.argument
  name : r'.name = r.name
  scalar : r'.scalar = r.scalar
  declared : r.isDeclared = true → r'.isDeclared = true
  fields : r.isDeclared = true → r'.fields = r.fields
  union : r.isUnion = true → r'.isUnion = true

theorem Persists.refl (r : TypeRecord) : r.Persists r := ⟨rfl, rfl, rfl, id, fun _ => rfl, id⟩

theorem Persists.trans (h : r.Persists r') (h' : r'.Persists r'') : r.Persists r'' where
  argument := h'.argument.trans h.argument
  name := h'.name.trans h.name
  scalar := h'.scalar.trans h.scalar
  declared hd := h'.declared (h.declared hd)
  fields hd := (h'.fields (h.declared hd)).trans (h.fields hd)
  union hu := h'.union (h.union hu)

theorem Step.persists (h : Step r r') : r.Persists r' := by
  cases h with
  | fill fields hd hu =>
    refine ⟨rfl, rfl, rfl, fun _ => rfl, fun h => ?_, id⟩
    rw [hd] at h
    cases h
  | flag hc => exact ⟨rfl, rfl, rfl, id, fun _ => rfl, fun _ => rfl⟩
  | join base => exact ⟨rfl, rfl, rfl, id, fun _ => rfl, id⟩
  | describe d => exact ⟨rfl, rfl, rfl, id, fun _ => rfl, id⟩

/-- Fields come with the declaration, and a declared type is no union, scalars apart. -/
structure Coherent (r : TypeRecord) : Prop where
  idle : r.isDeclared = false → r.fields = []
  scalar : r.scalar.isSome = true → r.isDeclared = true ∧ r.fields = []
  apart : r.scalar = none → r.isDeclared = true → r.isUnion = false

theorem IsPlaceholder.coherent (h : r.IsPlaceholder) : r.Coherent := by
  rw [h]
  exact ⟨fun _ => rfl, fun hs => (by cases hs), fun _ hd => by cases hd⟩

theorem Step.coherent (h : Step r r') (hr : r.Coherent) : r'.Coherent := by
  cases h with
  | fill fields hd hu =>
    refine ⟨fun h => (by cases h), fun hs => ?_, fun _ _ => hu⟩
    -- a scalar is declared, so it is not filled in
    have hscalar := (hr.scalar hs).1
    rw [hd] at hscalar
    cases hscalar
  | flag hc =>
    refine ⟨hr.idle, hr.scalar, fun hs hd => ?_⟩
    have hconcrete : r.isConcrete = true := by
      simp only [isConcrete, show r.isDeclared = true from hd, show r.scalar = none from hs]
      rfl
    rw [hc] at hconcrete
    cases hconcrete
  | join base => exact ⟨hr.idle, hr.scalar, hr.apart⟩
  | describe d => exact ⟨hr.idle, hr.scalar, hr.apart⟩

theorem Coherent.fields_of_isUnion (hr : r.Coherent) (hu : r.isUnion = true) : r.fields = [] := by
  cases hs : r.scalar with
  | some s => exact (hr.scalar (by rw [hs]; rfl)).2
  | none =>
    refine hr.idle (Bool.eq_false_iff.mpr fun hd => ?_)
    rw [hr.apart hs hd] at hu
    cases hu

end TypeRecord

namespace Registry
open Admission
variable {g g' g'' : Registry} {id : TypeId}

/-- `g'` has the records and functions of `g` under their keys, and what was set in them is as it was. -/
structure Persists (g g' : Registry) : Prop where
  size_le : g.size ≤ g'.size
  find? : ∀ {k id}, g.find? k = some id → g'.find? k = some id
  record : ∀ id < g.size, (g.get id).Persists (g'.get id)
  functions : g.functions.toList <+: g'.functions.toList

namespace Persists

theorem refl (g : Registry) : g.Persists g :=
  ⟨Nat.le_refl _, fun hk => hk, fun _ _ => .refl _, List.prefix_refl _⟩

theorem trans (h : g.Persists g') (h' : g'.Persists g'') : g.Persists g'' where
  size_le := Nat.le_trans h.size_le h'.size_le
  find? hk := h'.find? (h.find? hk)
  record id hid := (h.record id hid).trans (h'.record id (Nat.lt_of_lt_of_le hid h.size_le))
  functions := h.functions.trans h'.functions

theorem of_grows (h : Grows g g') : g.Persists g' := by
  refine ⟨h.size_le, h.find?, fun id hid => ?_, ?_⟩
  · rw [h.kept id hid]
    exact .refl _
  · exact ⟨[], by rw [h.functions, List.append_nil]⟩

theorem update {f : TypeRecord → TypeRecord} (h : (g.get id).Step (f (g.get id))) :
    g.Persists (g.update id f) := by
  refine ⟨by rw [size_update], fun hk => hk, fun j _ => ?_, List.prefix_refl _⟩
  rcases get_update_cases g id f j with heq | ⟨rfl, heq⟩ <;> rw [heq]
  · exact .refl _
  · exact h.persists

theorem push (g : Registry) (f : FunctionRecord) : g.Persists (g.push f) := by
  refine ⟨Nat.le_refl _, fun hk => hk, fun _ _ => .refl _, ?_⟩
  rw [Registry.push, Array.toList_push]
  exact List.prefix_append _ _

end Persists

theorem stable_persists (g : Registry) : Stable g.Persists :=
  .of_steps (fun g₁ _ e _ h => h.trans (.of_grows (grows_intern g₁ e)))
    (fun _ _ _ _ hstep h => h.trans (.update hstep)) (fun g₁ f _ h => h.trans (.push g₁ f))

/-- Every record is coherent. -/
def Coherent (g : Registry) : Prop := ∀ id, (g.get id).Coherent

theorem coherent_initial : initial.Coherent := by
  intro id
  rcases Nat.lt_or_ge id initial.size with hid | hid
  · have hall : ∀ id < initial.size, (initial.get id).isDeclared = true ∧
        (initial.get id).isUnion = false ∧ (initial.get id).fields = [] := by decide
    obtain ⟨hd, hu, hf⟩ := hall id hid
    exact ⟨fun _ => hf, fun _ => ⟨hd, hf⟩, fun _ _ => hu⟩
  · rw [get_of_size_le hid]
    exact TypeRecord.IsPlaceholder.coherent rfl

theorem stable_coherent : Stable Coherent := by
  refine .of_steps (fun g token e _ hg j => ?_) (fun g id f _ hstep hg j => ?_)
    (fun g f _ hg => hg)
  · have hgr := grows_intern g e
    rcases Nat.lt_or_ge j g.size with hj | hj
    · rw [hgr.kept j hj]
      exact hg j
    · exact (hgr.fresh j hj).coherent
  · rcases get_update_cases g id f j with heq | ⟨rfl, heq⟩ <;> rw [heq]
    · exact hg j
    · exact hstep.coherent (hg j)

theorem Reachable.coherent (hg : g.Reachable) : g.Coherent :=
  hg.of_stable coherent_initial stable_coherent

/-- Whatever is done to a registry, single changes at any place and in any order, refused ones among
them: no record goes or moves, no identity changes, no flag is cleared, fields come with the
declaration and stay as they are, a union has none, only a scalar is declared and a union, and
functions are added at the end under new names, by which they are found. -/
theorem records_persist (hg : g.Reachable) (ops : List Operation) :
    let g' := performAll ops g
    g.Persists g' ∧
    (∀ id, (g'.get id).isDeclared = false → (g'.get id).fields = []) ∧
    (∀ id, (g'.get id).isUnion = true → (g'.get id).fields = []) ∧
    (∀ id, (g'.get id).scalar = none → ¬ ((g'.get id).isDeclared = true ∧ (g'.get id).isUnion = true)) ∧
    (g'.functions.toList.map (·.name)).Nodup ∧
    ∀ n f, g'.function? n = some f ↔ f ∈ g'.functions ∧ f.name = n := by
  intro g'
  have hg' : g'.Reachable := hg.performAll ops
  have hcoherent := hg'.coherent
  refine ⟨performAll_of_stable (stable_persists g) ops (.refl g), fun id => (hcoherent id).idle,
    fun id => (hcoherent id).fields_of_isUnion, fun id hs ⟨hd, hu⟩ => ?_, hg'.distinctFunctions,
    fun n f => hg'.sound.filed.function?_eq_some_iff⟩
  rw [(hcoherent id).apart hs hd] at hu
  cases hu

/-- A union and a declared type. -/
def settled : Registry :=
  performAll [.resolve "Message", .markUnion 7, .declare "user" none, .define 8 [⟨"id", none, 3⟩],
    .pushFunction ⟨"getMe", none, [], 8⟩] initial

/-- Fields for the union, other fields for the type, the type as a union, the function once more. -/
theorem records_persist_settled :
    settled.Reachable ∧ ((settled.get 7).isUnion = true ∧ (settled.get 8).isDeclared = true ∧
      (settled.get 8).fields = [⟨"id", none, 3⟩]) ∧
    let g' := performAll [.define 7 [⟨"id", none, 3⟩], .define 8 [], .markUnion 8, .setBase 8 7,
      .pushFunction ⟨"getMe", none, [], 7⟩] settled
    (g'.get 7).fields = [] ∧ (g'.get 8).fields = [⟨"id", none, 3⟩] ∧ (g'.get 8).isUnion = false ∧
      g'.function? "getMe" = some ⟨"getMe", none, [], 8⟩ := by
  have hg : settled.Reachable := Reachable.initial.performAll _
  have hrun : ((settled.get 7).isUnion = true ∧ (settled.get 8).isDeclared = true ∧
      (settled.get 8).fields = [⟨"id", none, 3⟩]) ∧ settled.size = 9 ∧ (settled.get 8).scalar = none ∧
      settled.functions.toList = [⟨"getMe", none, [], 8⟩] := by decide +kernel
  obtain ⟨hset, hsize, hscalar, hfunctions⟩ := hrun
  refine ⟨hg, hset, ?_⟩
  intro g'
  obtain ⟨hkept, -, hunion, hapart, -, hfind⟩ := records_persist hg
    [.define 7 [⟨"id", none, 3⟩], .define 8 [], .markUnion 8, .setBase 8 7,
      .pushFunction ⟨"getMe", none, [], 7⟩]
  have h₇ := hkept.record 7 (by rw [hsize]; decide)
  have h₈ := hkept.record 8 (by rw [hsize]; decide)
  refine ⟨hunion 7 (h₇.union hset.1), (h₈.fields hset.2.1).trans hset.2.2,
    Bool.eq_false_iff.mpr fun hu => hapart 8 (h₈.scalar.trans hscalar) ⟨h₈.declared hset.2.1, hu⟩,
    (hfind _ _).mpr ⟨?_, rfl⟩⟩
  have hmem : (⟨"getMe", none, [], 8⟩ : FunctionRecord) ∈ settled.functions.toList := by
    rw [hfunctions]
    exact List.mem_singleton_self _
  exact Array.mem_toList_iff.mp (hkept.functions.subset hmem)

end Registry

end TypeLang
