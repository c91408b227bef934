import TypeLang.Proofs.Levels
import TypeLang.Proofs.Swap
import TypeLang.Proofs.Units

/-! # Declarations in any order

The items of one list may come in any order, as long as no two of them document the same union. Runs
over reordered lists take in the same clauses, which swap, and so lead to the same catalogue
(`addLists_perm`); the places of the records differ, but neither verification nor the units depend on
them. -/

namespace TypeLang

open Registry

/-- The name of the union that an item documents. -/
def Item.unionName? : Item → Option String
  | .declaration _ => none
  | .union name _ _ => some name

/-- The two tokens lead to the same record. -/
def SameRecord (t u : String) : Prop :=
  ∃ id g, (resolve t).run initial = .ok id g ∧ g.lookup? u = some id

/-- No two items document the same union. -/
def DistinctUnions (is : List Item) : Prop :=
  is.Pairwise fun i j => ∀ t ∈ i.unionName?, ∀ u ∈ j.unionName?, ¬ SameRecord t u

/-- Tokens lead to the same record if they stand for the same expression. -/
theorem sameRecord_iff {t u : String} :
    SameRecord t u ↔ ∃ e, TypeExpr.parse? t = some e ∧ TypeExpr.parse? u = some e := by
  simp only [TypeExpr.parse?_eq_some_iff]
  constructor
  · rintro ⟨id, g, ht, hu⟩
    cases he : TypeExpr.parse t with
    | error m =>
      rw [run_resolve, he] at ht
      cases ht
    | ok e =>
      rw [run_resolve, he] at ht
      cases ht
      have hg := wellSpelled_initial.intern (TypeExpr.wellFormed_of_parse he)
      obtain ⟨e', he', hfind⟩ := hg.lookup?_eq_some_iff.mp hu
      refine ⟨e, rfl, ?_⟩
      rw [he', ← hg.exprAt_of_findExpr? hfind, hg.exprAt_of_findExpr? (findExpr?_intern initial e)]
  · rintro ⟨e, ht, hu⟩
    refine ⟨_, _, by rw [run_resolve, ht], ?_⟩
    rw [lookup?_of_parse hu]
    exact findExpr?_intern initial e

theorem clause?_types_cases {decl : Declaration} {k : Clause}
    (h : (Item.declaration decl).clause? .types = some k) : k = .skip ∨ ∃ s d, k = .type s d := by
  simp only [Item.clause?] at h
  split at h
  · cases h; exact .inl rfl
  · obtain ⟨s, -, rfl⟩ := Option.map_eq_some_iff.mp h
    exact .inr ⟨s, _, rfl⟩

/-- Where no two items document the same union, the order of any two does not matter. -/
theorem DistinctUnions.apart {is : List Item} (h : DistinctUnions is) (kind : Admission.Kind) :
    is.Pairwise (Item.Apart kind) := by
  refine List.Pairwise.imp (fun {i j} hij k₁ k₂ hk₁ hk₂ => ?_) h
  cases i with
  | declaration decl =>
    cases j with
    | declaration decl' =>
      cases kind with
      | types =>
        rcases clause?_types_cases hk₁ with rfl | ⟨s, d, rfl⟩ <;>
          rcases clause?_types_cases hk₂ with rfl | ⟨s', d', rfl⟩ <;> trivial
      | functions =>
        obtain ⟨s, -, rfl⟩ := Option.map_eq_some_iff.mp hk₁
        obtain ⟨s', -, rfl⟩ := Option.map_eq_some_iff.mp hk₂
        trivial
    | union u d' n' =>
      obtain ⟨e', -, rfl⟩ := Option.map_eq_some_iff.mp hk₂
      cases kind with
      | types => rcases clause?_types_cases hk₁ with rfl | ⟨s, d, rfl⟩ <;> trivial
      | functions => obtain ⟨s, -, rfl⟩ := Option.map_eq_some_iff.mp hk₁; trivial
  | union t d n =>
    obtain ⟨e, he, rfl⟩ := Option.map_eq_some_iff.mp hk₁
    cases j with
    | declaration decl' =>
      cases kind with
      | types => rcases clause?_types_cases hk₂ with rfl | ⟨s', d', rfl⟩ <;> trivial
      | functions => obtain ⟨s', -, rfl⟩ := Option.map_eq_some_iff.mp hk₂; trivial
    | union u d' n' =>
      obtain ⟨e', he', rfl⟩ := Option.map_eq_some_iff.mp hk₂
      rintro rfl
      exact hij t rfl u rfl (sameRecord_iff.mpr ⟨e, he, he'⟩)

namespace Compile
variable {file file' : String} {types types' functions functions' : List Item} {c c' : Compilation}

/-- Adds a list of types and a list of functions; the first refusal ends it. -/
def addLists (file file' : String) (types functions : List Item) : Compile Unit := do
  let _ ← addItems true file .types types
  let _ ← addItems true file' .functions functions

theorem run_addLists_eq_ok_iff {u : Unit} :
    (addLists file file' types functions).run c = .ok u c' ↔
      ∃ t₁ c₁ t₂, (addItems true file .types types).run c = .ok t₁ c₁ ∧
        (addItems true file' .functions functions).run c₁ = .ok t₂ c' := by
  constructor
  · intro h
    obtain ⟨t₁, c₁, htypes, h⟩ := run_bind_eq_ok h
    obtain ⟨t₂, c₂, hfunctions, h⟩ := run_bind_eq_ok h
    cases h
    exact ⟨t₁, c₁, t₂, htypes, hfunctions⟩
  · rintro ⟨t₁, c₁, t₂, htypes, hfunctions⟩
    rw [addLists, run_bind_ok htypes, run_bind_ok hfunctions]
    rfl

/-- Reordered lists are taken in as well, and lead to the same catalogue. -/
theorem addLists_perm (ht : types.Perm types') (hf : functions.Perm functions')
    (hat : types.Pairwise (Item.Apart .types)) (haf : functions.Pairwise (Item.Apart .functions))
    (h : (addLists file file' types functions).run {} = .ok () c) :
    c.registry.Closed ∧ ∃ c', (addLists file file' types' functions').run {} = .ok () c' ∧
      c'.registry.Closed ∧ c'.registry.catalogue = c.registry.catalogue := by
  obtain ⟨t₁, c₁, t₂, htypes, hfunctions⟩ := run_addLists_eq_ok_iff.mp h
  obtain ⟨hc₁, hadmits₁⟩ := foldlM_strict_ok closed_initial htypes
  obtain ⟨hc, hadmits₂⟩ := foldlM_strict_ok hc₁ hfunctions
  have hs₁ := hadmits₁.scalarsDeclared scalarsDeclared_initial
  obtain ⟨u₁, d₁, hrun₁, hd₁, hcat₁⟩ := foldlM_strict_of_admits (c := {}) closed_initial
    (hadmits₁.perm ht scalarsDeclared_initial hat) file {}
  have hadmits := hadmits₂.perm hf hs₁ haf
  rw [← hcat₁] at hadmits
  obtain ⟨u₂, d₂, hrun₂, hd₂, hcat₂⟩ := foldlM_strict_of_admits hd₁ hadmits file' {}
  exact ⟨hc, d₂, run_addLists_eq_ok_iff.mpr ⟨u₁, d₁, u₂, hrun₁, hrun₂⟩, hd₂, hcat₂⟩

/-- The order of the items within a list does not matter: whether all are taken in, whether the
registry passes verification, and which units it gives. -/
theorem order_irrelevant (file file' : String) (ht : types.Perm types')
    (hf : functions.Perm functions') (hdt : DistinctUnions types) (hdf : DistinctUnions functions) :
    ((∃ c, (addLists file file' types functions).run {} = .ok () c) ↔
      ∃ c', (addLists file file' types' functions').run {} = .ok () c') ∧
    ∀ c c', (addLists file file' types functions).run {} = .ok () c →
      (addLists file file' types' functions').run {} = .ok () c' →
      (∀ o : Options, o.strict = true →
        ((∃ d, (verify o).run c = .ok () d) ↔ ∃ d, (verify o).run c' = .ok () d)) ∧
      c.registry.units.Perm c'.registry.units := by
  have hat := hdt.apart .types
  have haf := hdf.apart .functions
  refine ⟨⟨fun ⟨c, h⟩ => ?_, fun ⟨c', h⟩ => ?_⟩, fun c c' h h' => ?_⟩
  · obtain ⟨-, c', h', -⟩ := addLists_perm ht hf hat haf h
    exact ⟨c', h'⟩
  · obtain ⟨-, c, h', -⟩ := addLists_perm ht.symm hf.symm (ht.pairwise hat fun h => h.symm)
      (hf.pairwise haf fun h => h.symm) h
    exact ⟨c, h'⟩
  · obtain ⟨hc, d, hd, hdc, hcat⟩ := addLists_perm ht hf hat haf h
    rw [h'] at hd
    cases hd
    refine ⟨fun o ho => ?_, units_perm hc hdc hcat.symm⟩
    simp only [run_verify_strict_eq_ok ho, undeclared_eq_nil_iff hc, undeclared_eq_nil_iff hdc, hcat,
      exists_and_left, exists_eq]

/-- A type with a field whose type is declared later, and the documentation of both unions. -/
def forwardTypes : List Item :=
  [.declaration ⟨⟨"a", [⟨"x", "b", 3⟩], "A"⟩, 1, {}⟩, .union "A" none 2, .union "B" none 3,
    .declaration ⟨⟨"b", [], "B"⟩, 4, {}⟩]

/-- A function on sequences of the first type. -/
def forwardFunctions : List Item := [.declaration ⟨⟨"f", [⟨"y", "vector<a>", 3⟩], "B"⟩, 1, {}⟩]

theorem order_irrelevant_forward :
    (DistinctUnions forwardTypes ∧ DistinctUnions forwardFunctions) ∧
    ∃ c c', (addLists "types" "functions" forwardTypes forwardFunctions).run {} = .ok () c ∧
      (addLists "types" "functions" forwardTypes.reverse forwardFunctions).run {} = .ok () c' ∧
      c.registry.units.Perm c'.registry.units := by
  have hne : ¬ SameRecord "A" "B" := by
    rw [sameRecord_iff]
    rintro ⟨e, ha, hb⟩
    have hA : TypeExpr.parse? "A" = some (.name "A") := by decide +kernel
    have hB : TypeExpr.parse? "B" = some (.name "B") := by decide +kernel
    rw [hA] at ha
    rw [hB, ← ha] at hb
    exact absurd hb (by decide)
  have hdt : DistinctUnions forwardTypes := by
    simpa [DistinctUnions, forwardTypes, Item.unionName?] using hne
  have hdf : DistinctUnions forwardFunctions := List.pairwise_singleton _ _
  have hrun : ∃ c, (addLists "types" "functions" forwardTypes forwardFunctions).run {} = .ok () c := by
    have hok : (match (addLists "types" "functions" forwardTypes forwardFunctions).run {} with
      | .ok _ _ => true
      | .error _ _ => false) = true := by decide +kernel
    cases h : (addLists "types" "functions" forwardTypes forwardFunctions).run {} with
    | ok u c => exact ⟨c, rfl⟩
    | error e c => rw [h] at hok; cases hok
  obtain ⟨hiff, hsame⟩ := order_irrelevant "types" "functions"
    (List.reverse_perm forwardTypes).symm (.refl forwardFunctions) hdt hdf
  obtain ⟨c', h'⟩ := hiff.mp hrun
  obtain ⟨c, h⟩ := hrun
  exact ⟨⟨hdt, hdf⟩, c, c', h, h', (hsame c c' h h').2⟩

end Compile

end TypeLang
