import TypeLang.Proofs.ItemRun

/-! # The order of clauses

Clauses of one list commute: if the second of two fits after the first, then either may come first,
and the catalogue is the same in the end (`swap`). A type that is declared by one clause is no union
of the other, in whichever order they come, because the later one would not fit. Only two clauses
that describe the same union do not commute, and a type does not commute with a function, whose
result becomes a union when it is not declared yet. -/

namespace TypeLang

namespace Clause
variable {s : Catalogue} {a b : Shape} {d d' : Option String} {e e' x : TypeExpr} {n m : String}
  {k₁ k₂ : Clause}

/-- Two clauses whose order does not matter. -/
def Apart : Clause → Clause → Prop
  | union e _, union e' _ => e ≠ e'
  | type .., function .. | function .., type .. => False
  | _, _ => True

theorem Apart.symm (h : Apart k₁ k₂) : Apart k₂ k₁ := by
  cases k₁ <;> cases k₂ <;> first | exact Ne.symm h | exact h

/-! ### What a clause does to the other types -/

theorem entry_type (hn : x ≠ a.name) (hr : x ≠ a.result) :
    ((type a d).apply s).entry x = s.entry x := by
  simp only [apply, Catalogue.modify, Catalogue.hold, if_neg hn, if_neg hr]

theorem isConcrete_type (hn : x ≠ a.name) :
    (((type a d).apply s).entry x).isConcrete = (s.entry x).isConcrete := by
  simp only [apply, Catalogue.modify, Catalogue.hold, if_neg hn]
  split <;> rfl

theorem isConcrete_function :
    (((function n a d).apply s).entry x).isConcrete = (s.entry x).isConcrete := by
  simp only [apply, Catalogue.modify, Catalogue.hold, Catalogue.push]
  split <;> rfl

theorem isConcrete_union :
    (((union e d).apply s).entry x).isConcrete = (s.entry x).isConcrete := by
  simp only [apply, Catalogue.modify, Catalogue.hold]
  split <;> rfl

/-- A type that could be declared is concrete afterwards. -/
theorem isConcrete_type_self (hs : s.ScalarsDeclared) (h : (type a d).Fits s) :
    (((type a d).apply s).entry a.name).isConcrete = true := by
  have hscalar : (s.entry a.name).scalar = none := by
    cases hc : (s.entry a.name).scalar with
    | none => rfl
    | some c =>
      have hd := hs a.name (by rw [hc]; rfl)
      rw [h.1.1] at hd
      cases hd
  rw [Entry.isConcrete, Catalogue.scalar_entry_apply, hscalar]
  simp only [apply, Catalogue.modify, Catalogue.hold, if_pos]
  rfl

/-! ### Pairs of clauses -/

/-- Either clause may come first, to the same effect. -/
def Swaps (k₁ k₂ : Clause) (s : Catalogue) : Prop :=
  k₂.Fits s ∧ k₁.Fits (k₂.apply s) ∧ k₁.apply (k₂.apply s) = k₂.apply (k₁.apply s)

theorem swap_type_type (hs : s.ScalarsDeclared) (h₁ : (type a d).Fits s)
    (h₂ : (type b d').Fits ((type a d).apply s)) : Swaps (type a d) (type b d') s := by
  -- the second clause would not fit a type that the first has declared or made a union
  have hnn : b.name ≠ a.name := fun h => by
    have := h₂.1.1
    simp only [apply, Catalogue.modify, Catalogue.hold, if_pos h] at this
    cases this
  have hnr : b.name ≠ a.result := fun h => by
    have := h₂.1.2
    simp only [apply, Catalogue.modify, Catalogue.hold, if_neg hnn, if_pos h] at this
    cases this
  have hrn : b.result ≠ a.name := fun h => by
    have := h₂.2 (h ▸ hnn.symm)
    rw [h, isConcrete_type_self hs h₁] at this
    cases this
  refine ⟨⟨?_, fun h => ?_⟩, ⟨?_, fun h => ?_⟩, ?_⟩
  · rw [← entry_type (d := d) (s := s) hnn hnr]; exact h₂.1
  · rw [← isConcrete_type (d := d) (s := s) hrn]; exact h₂.2 h
  · rw [entry_type hnn.symm hrn.symm]; exact h₁.1
  · rw [isConcrete_type hnr.symm]; exact h₁.2 h
  · refine Catalogue.ext (funext fun x => propext or_right_comm) (funext fun x => ?_) rfl
    simp only [apply, Catalogue.modify, Catalogue.hold]
    by_cases hx : x = a.name
    · subst hx
      simp only [if_pos, if_neg hnn.symm, if_neg hrn.symm]
    · by_cases hx' : x = b.name
      · subst hx'
        simp only [if_pos, if_neg hnn, if_neg hnr]
      · simp only [if_neg hx, if_neg hx']
        split_ifs <;> rfl

theorem apply_type_union (hne : e ≠ a.name) :
    (type a d).apply ((union e d').apply s) = (union e d').apply ((type a d).apply s) := by
  refine Catalogue.ext (funext fun x => propext or_right_comm) (funext fun x => ?_) rfl
  simp only [apply, Catalogue.modify, Catalogue.hold]
  by_cases hx : x = a.name
  · subst hx
    simp only [if_pos, if_neg hne.symm]
  · simp only [if_neg hx]
    split_ifs <;> rfl

theorem swap_type_union (hs : s.ScalarsDeclared) (h₁ : (type a d).Fits s)
    (h₂ : (union e d').Fits ((type a d).apply s)) : Swaps (type a d) (union e d') s := by
  have hne : e ≠ a.name := fun h => by
    have : (((type a d).apply s).entry e).isConcrete = false := h₂
    rw [h, isConcrete_type_self hs h₁] at this
    cases this
  refine ⟨?_, ⟨?_, fun h => ?_⟩, ?_⟩
  · exact (isConcrete_type hne).symm.trans h₂
  · simp only [apply, Catalogue.modify, Catalogue.hold, if_neg hne.symm]; exact h₁.1
  · rw [isConcrete_union]; exact h₁.2 h
  · exact apply_type_union hne

theorem swap_union_type (h₁ : (union e d).Fits s)
    (h₂ : (type a d').Fits ((union e d).apply s)) : Swaps (union e d) (type a d') s := by
  have hne : e ≠ a.name := fun h => by
    have := h₂.1.2
    simp only [apply, Catalogue.modify, Catalogue.hold, if_pos h.symm] at this
    cases this
  refine ⟨⟨?_, fun h => ?_⟩, ?_, ?_⟩
  · have := h₂.1
    simp only [apply, Catalogue.modify, Catalogue.hold, if_neg hne.symm] at this
    exact this
  · rw [← isConcrete_union (e := e) (d := d)]; exact h₂.2 h
  · exact (isConcrete_type hne).trans h₁
  · exact (apply_type_union hne).symm

theorem swap_union_union (hne : e ≠ e') (h₁ : (union e d).Fits s)
    (h₂ : (union e' d').Fits ((union e d).apply s)) : Swaps (union e d) (union e' d') s := by
  refine ⟨isConcrete_union.symm.trans h₂, isConcrete_union.trans h₁, ?_⟩
  refine Catalogue.ext (funext fun x => propext or_right_comm) (funext fun x => ?_) rfl
  simp only [apply, Catalogue.modify, Catalogue.hold]
  by_cases hx : x = e
  · subst hx
    simp only [if_pos, if_neg hne]
  · simp only [if_neg hx]

theorem swap_function_function (h₁ : (function n a d).Fits s)
    (h₂ : (function m b d').Fits ((function n a d).apply s)) :
    Swaps (function n a d) (function m b d') s := by
  have hne : n ≠ m := h₂ _ (Multiset.mem_cons_self _ _)
  refine ⟨fun f hf => h₂ f (Multiset.mem_cons_of_mem hf), fun f hf => ?_, ?_⟩
  · rcases Multiset.mem_cons.mp hf with rfl | hf
    · exact hne.symm
    · exact h₁ f hf
  · refine Catalogue.ext (funext fun x => propext or_right_comm) (funext fun x => ?_)
      (Multiset.cons_swap _ _ _)
    simp only [apply, Catalogue.modify, Catalogue.hold, Catalogue.push]
    split_ifs with ha hb
    · simp only [← ha, ← hb, Bool.or_assoc, Bool.or_self]
    · rfl
    · rfl
    · rfl

theorem apply_function_union :
    (function n a d).apply ((union e d').apply s) = (union e d').apply ((function n a d).apply s) := by
  refine Catalogue.ext (funext fun x => propext or_right_comm) (funext fun x => ?_) rfl
  simp only [apply, Catalogue.modify, Catalogue.hold, Catalogue.push]
  split_ifs <;> simp only [Bool.true_or]

theorem swap_function_union (h₁ : (function n a d).Fits s)
    (h₂ : (union e d').Fits ((function n a d).apply s)) :
    Swaps (function n a d) (union e d') s :=
  ⟨isConcrete_function.symm.trans h₂, h₁, apply_function_union⟩

theorem swap_union_function (h₁ : (union e d).Fits s)
    (h₂ : (function n a d').Fits ((union e d).apply s)) :
    Swaps (union e d) (function n a d') s :=
  ⟨h₂, isConcrete_function.trans h₁, apply_function_union.symm⟩

/-- Clauses that are apart may come in either order. -/
theorem swap (hs : s.ScalarsDeclared) (h : Apart k₁ k₂) (h₁ : k₁.Fits s) (h₂ : k₂.Fits (k₁.apply s)) :
    Swaps k₁ k₂ s := by
  cases k₁ with
  | skip => exact ⟨h₂, trivial, rfl⟩
  | type a d =>
    cases k₂ with
    | skip => exact ⟨trivial, h₁, rfl⟩
    | type b d' => exact swap_type_type hs h₁ h₂
    | function n b d' => exact h.elim
    | union e d' => exact swap_type_union hs h₁ h₂
  | function n a d =>
    cases k₂ with
    | skip => exact ⟨trivial, h₁, rfl⟩
    | type b d' => exact h.elim
    | function m b d' => exact swap_function_function h₁ h₂
    | union e d' => exact swap_function_union h₁ h₂
  | union e d =>
    cases k₂ with
    | skip => exact ⟨trivial, h₁, rfl⟩
    | type a d' => exact swap_union_type h₁ h₂
    | function n a d' => exact swap_union_function h₁ h₂
    | union e' d' => exact swap_union_union h h₁ h₂

end Clause

/-! ### Runs -/

/-- Two items of a list whose order does not matter. -/
def Item.Apart (kind : Admission.Kind) (i j : Item) : Prop :=
  ∀ k₁ k₂, i.clause? kind = some k₁ → j.clause? kind = some k₂ → k₁.Apart k₂

theorem Item.Apart.symm {kind : Admission.Kind} {i j : Item} (h : Apart kind i j) : Apart kind j i :=
  fun k₁ k₂ h₁ h₂ => (h k₂ k₁ h₂ h₁).symm

theorem Catalogue.Admits.scalarsDeclared {kind : Admission.Kind} {is : List Item} {s s' : Catalogue}
    (h : Admits kind is s s') (hs : s.ScalarsDeclared) : s'.ScalarsDeclared := by
  induction is generalizing s with
  | nil => cases h; exact hs
  | cons i is ih =>
    obtain ⟨k, -, -, h⟩ := h
    exact ih h (hs.apply k)

/-- A run that takes all items in does so in every order, and leads to the same catalogue. -/
theorem Catalogue.Admits.perm {kind : Admission.Kind} {is js : List Item} {s s' : Catalogue}
    (hp : is.Perm js) (hs : s.ScalarsDeclared) (hapart : is.Pairwise (Item.Apart kind))
    (h : Admits kind is s s') : Admits kind js s s' := by
  induction hp generalizing s with
  | nil => exact h
  | cons i _ ih =>
    obtain ⟨k, hk, hfits, h⟩ := h
    exact ⟨k, hk, hfits, ih (hs.apply k) (List.pairwise_cons.mp hapart).2 h⟩
  | swap j i is =>
    obtain ⟨k₁, hk₁, hfits₁, k₂, hk₂, hfits₂, h⟩ := h
    have hij := (List.pairwise_cons.mp hapart).1 j List.mem_cons_self k₁ k₂ hk₁ hk₂
    obtain ⟨hfits₂', hfits₁', heq⟩ := Clause.swap hs hij hfits₁ hfits₂
    exact ⟨k₂, hk₂, hfits₂', k₁, hk₁, hfits₁', by rw [heq]; exact h⟩
  | trans hp₁ _ ih₁ ih₂ =>
    -- being apart is symmetric, so a reordered list is apart as well
    exact ih₂ hs (hp₁.pairwise hapart fun h => h.symm) (ih₁ hs hapart h)

end TypeLang
