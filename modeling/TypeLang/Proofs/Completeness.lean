import TypeLang.Proofs.ItemRun
import TypeLang.Proofs.Spelling
import TypeLang.Proofs.Verified

/-! # Types that verification does not miss

A type gets a record when it is declared, or named in a field, in an argument, as a result or as a
union. `Accounted s` says that every name with a record is known, is the leaf of a field or argument,
which verification looks at, or is the leaf of a generic union or result, which it does not look at.
Every clause keeps this (`Accounted.apply`). So after a strict compilation the only classes without a
declaration are those of the leaves of generic unions and results. -/

namespace TypeLang

namespace Catalogue
variable {s s' : Catalogue} {k : Clause} {e : TypeExpr} {n : String}

/-- The second catalogue says all that the first one says. -/
structure Extends (s s' : Catalogue) : Prop where
  holds : ∀ e, s.Holds e → s'.Holds e
  isDeclared : ∀ e, (s.entry e).isDeclared = true → (s'.entry e).isDeclared = true
  isUnion : ∀ e, (s.entry e).isUnion = true → (s'.entry e).isUnion = true
  fields : ∀ e, ∀ f ∈ (s.entry e).fields, f ∈ (s'.entry e).fields
  functions : ∀ f ∈ s.functions, f ∈ s'.functions

/-- Verification looks at this leaf. -/
def Walks (s : Catalogue) (l : TypeExpr) : Prop :=
  (∃ e, ∃ f ∈ (s.entry e).fields, f.type.leaf = l) ∨
    ∃ f ∈ s.functions, ∃ a ∈ f.arguments, a.type.leaf = l

/-- The leaf of a generic union or of a generic result. -/
def Misses (s : Catalogue) (l : TypeExpr) : Prop :=
  ∃ e, s.Holds e ∧ e.isGeneric = true ∧ e.leaf = l ∧
    ((s.entry e).isUnion = true ∨ ∃ f ∈ s.functions, f.result = e)

/-- There is an explanation why this type has a record. -/
def Accounts (s : Catalogue) (l : TypeExpr) : Prop :=
  (s.entry l).isKnown = true ∨ s.Walks l ∨ s.Misses l

/-- Every name with a record is accounted for. -/
structure Accounted (s : Catalogue) : Prop where
  bare : ∀ e, (s.entry e).isDeclared = false → (s.entry e).fields = []
  scalar : s.ScalarsDeclared
  byte : (s.entry (.name Scalar.byte.codeName)).isDeclared = true
  accounts : ∀ n, s.Holds (.name n) → s.Accounts (.name n)

theorem isKnown_iff {r : Entry} : r.isKnown = true ↔ r.isDeclared = true ∨ r.isUnion = true := by
  rw [Entry.isKnown, Bool.or_eq_true]

theorem Accounts.mono (h : s.Accounts e) (hs : Extends s s') : s'.Accounts e := by
  rcases h with h | (⟨x, f, hf, hl⟩ | ⟨f, hf, a, ha, hl⟩) | ⟨x, hx, hgen, hl, h⟩
  · exact .inl (isKnown_iff.mpr ((isKnown_iff.mp h).imp (hs.isDeclared e) (hs.isUnion e)))
  · exact .inr (.inl (.inl ⟨x, f, hs.fields x f hf, hl⟩))
  · exact .inr (.inl (.inr ⟨f, hs.functions f hf, a, ha, hl⟩))
  · refine .inr (.inr ⟨x, hs.holds x hx, hgen, hl, h.imp (hs.isUnion x) ?_⟩)
    rintro ⟨f, hf, hr⟩
    exact ⟨f, hs.functions f hf, hr⟩

/-- A name inside a union or a result is accounted for, if the union or result is known itself when
it is no generic type. -/
theorem accounts_of_mem_parts (hn : .name n ∈ e.parts) (he : s.Holds e)
    (hplain : e.isGeneric = false → (s.entry e).isKnown = true)
    (hgen : e.isGeneric = true → (s.entry e).isUnion = true ∨ ∃ f ∈ s.functions, f.result = e) :
    s.Accounts (.name n) := by
  have hleaf := TypeExpr.eq_leaf_of_mem_parts hn
  cases h : e.isGeneric with
  | false =>
    rw [TypeExpr.leaf_of_not_isGeneric h] at hleaf
    rw [← hleaf]
    exact .inl (hplain h)
  | true => exact .inr (.inr ⟨e, he, h, hleaf, hgen h⟩)

/-! ### Clauses -/

/-- A clause only adds, because the type that it declares had no fields before. -/
theorem extends_apply (hs : s.Accounted) (hfits : k.Fits s) : Extends s (k.apply s) := by
  have hdeclared : ∀ x, (s.entry x).isDeclared = true → ((k.apply s).entry x).isDeclared = true :=
    fun _ => isDeclared_entry_apply k
  cases k with
  | skip => exact ⟨fun _ h => h, hdeclared, fun _ h => h, fun _ _ h => h, fun _ h => h⟩
  | type d doc =>
    refine ⟨fun _ => .inl, hdeclared, fun x h => ?_, fun x f hf => ?_, fun _ h => h⟩ <;>
      simp only [Clause.apply, modify, hold]
    · split
      · exact h
      · split
        · rfl
        · exact h
    · split
      · -- a type that is not declared yet has no fields to lose
        next hx => rw [hx, hs.bare _ hfits.1.1] at hf; cases hf
      · split <;> exact hf
  | function name d doc =>
    refine ⟨fun _ => .inl, hdeclared, fun x h => ?_, fun x f hf => ?_,
      fun _ => Multiset.mem_cons_of_mem⟩ <;> simp only [Clause.apply, modify, hold, push]
    · split
      · rw [h, Bool.true_or]
      · exact h
    · split <;> exact hf
  | union e doc =>
    refine ⟨fun _ => .inl, hdeclared, fun x h => ?_, fun x f hf => ?_, fun _ h => h⟩ <;>
      simp only [Clause.apply, modify, hold]
    · split
      · rfl
      · exact h
    · split <;> exact hf

end Catalogue

/-- What is declared is a plain name or `bytes` written out. -/
def Clause.Plain : Clause → Prop
  | type d _ => d.name.isGeneric = true → d.name.leaf = .name Scalar.byte.codeName
  | skip | function .. | union .. => True

namespace Catalogue
variable {s s' : Catalogue} {k : Clause} {e : TypeExpr} {n : String} {d : Shape} {doc : Option String}

theorem accounts_type (hs : s.Accounted) (hfits : (Clause.type d doc).Fits s)
    (hplain : (Clause.type d doc).Plain) (hn : .name n ∈ d.name.parts ∨ d.Uses (.name n)) :
    ((Clause.type d doc).apply s).Accounts (.name n) := by
  have hext := extends_apply hs hfits
  have hname : (((Clause.type d doc).apply s).entry d.name).isDeclared = true := by
    simp only [Clause.apply, modify, hold, if_pos]
  have hself : .name n ∈ d.name.parts → ((Clause.type d doc).apply s).Accounts (.name n) := by
    intro hn
    have hleaf := TypeExpr.eq_leaf_of_mem_parts hn
    refine .inl (isKnown_iff.mpr (.inl ?_))
    cases h : d.name.isGeneric with
    | false => rwa [← hleaf, TypeExpr.leaf_of_not_isGeneric h]
    | true =>
      rw [← hleaf, hplain h]
      exact hext.isDeclared _ hs.byte
  rcases hn with hn | ⟨f, hf, hn⟩ | hn
  · exact hself hn
  · refine .inr (.inl (.inl ⟨d.name, f, ?_, TypeExpr.eq_leaf_of_mem_parts hn⟩))
    simpa only [Clause.apply, modify, hold, if_pos] using hf
  · -- a result becomes a union, unless it is the declared type itself
    by_cases hr : d.result = d.name
    · exact hself (hr ▸ hn)
    · have hunion : (((Clause.type d doc).apply s).entry d.result).isUnion = true := by
        simp only [Clause.apply, modify, hold, if_neg hr, if_pos]
      exact accounts_of_mem_parts hn (.inr (.inr (.inr d.result.self_mem_parts)))
        (fun _ => isKnown_iff.mpr (.inr hunion)) fun _ => .inl hunion

theorem accounts_function {name : String} (hn : d.Uses (.name n)) :
    ((Clause.function name d doc).apply s).Accounts (.name n) := by
  have hmem : (⟨name, doc, d.fields, d.result⟩ : FunctionEntry) ∈
      ((Clause.function name d doc).apply s).functions := Multiset.mem_cons_self _ _
  rcases hn with ⟨f, hf, hn⟩ | hn
  · exact .inr (.inl (.inr ⟨_, hmem, f, hf, TypeExpr.eq_leaf_of_mem_parts hn⟩))
  · refine accounts_of_mem_parts hn (.inr (.inr d.result.self_mem_parts)) (fun h => ?_)
      fun _ => .inr ⟨_, hmem, rfl⟩
    simp only [Clause.apply, modify, hold, push, if_pos, Entry.isKnown, h]
    cases (s.entry d.result).isDeclared <;> simp

theorem accounts_union (hn : .name n ∈ e.parts) : ((Clause.union e doc).apply s).Accounts (.name n) := by
  have hunion : (((Clause.union e doc).apply s).entry e).isUnion = true := by
    simp only [Clause.apply, modify, hold, if_pos]
  exact accounts_of_mem_parts hn (.inr e.self_mem_parts) (fun _ => isKnown_iff.mpr (.inr hunion))
    fun _ => .inl hunion

theorem Accounted.apply (hs : s.Accounted) (hfits : k.Fits s) (hplain : k.Plain) :
    (k.apply s).Accounted := by
  have hext := extends_apply hs hfits
  refine ⟨fun x h => ?_, hs.scalar.apply k, isDeclared_entry_apply k hs.byte, fun n hn => ?_⟩
  · cases k with
    | skip => exact hs.bare x h
    | type d doc =>
      simp only [Clause.apply, modify, hold] at h ⊢
      split at h
      · cases h
      · next hx => rw [if_neg hx]; split at h <;> split <;> exact hs.bare x h
    | function name d doc =>
      simp only [Clause.apply, modify, hold, push] at h ⊢
      split at h <;> split <;> exact hs.bare x h
    | union e doc =>
      simp only [Clause.apply, modify, hold] at h ⊢
      split at h <;> split <;> exact hs.bare x h
  · cases k with
    | skip => exact hs.accounts n hn
    | type d doc =>
      rcases hn with hn | hn
      · exact (hs.accounts n hn).mono hext
      · exact accounts_type hs hfits hplain hn
    | function name d doc =>
      rcases hn with hn | hn
      · exact (hs.accounts n hn).mono hext
      · exact accounts_function hn
    | union e doc =>
      rcases hn with hn | hn
      · exact (hs.accounts n hn).mono hext
      · exact accounts_union hn

open Registry in
theorem accounted_initial : initial.catalogue.Accounted where
  bare e h := by
    cases he : initial.findExpr? e with
    | none => rw [show initial.catalogue.entry e = {} from entry_of_none he]
    | some id =>
      have hd : (initial.catalogue.entry e).isDeclared = true := isDeclared_entry_initial he
      rw [h] at hd
      cases hd
  scalar := scalarsDeclared_initial
  byte := by
    have hbyte : initial.findExpr? (.name Scalar.byte.codeName) = some (scalarId .byte) := by
      decide +kernel
    exact isDeclared_entry_initial hbyte
  accounts n hn := by
    obtain ⟨id, hid⟩ := Option.isSome_iff_exists.mp hn
    exact .inl (isKnown_iff.mpr (.inl (isDeclared_entry_initial hid)))

end Catalogue

/-! ### Names in a schema -/

theorem mem_of_mem_trim {x : Char} {cs : List Char} (h : x ∈ Text.trim cs) : x ∈ cs := by
  have hend : x ∈ Text.trimStart cs := by
    have hrev := List.mem_reverse.mp h
    exact List.mem_reverse.mp ((List.dropWhile_sublist _).mem hrev)
  exact (List.dropWhile_sublist _).mem hend

namespace TypeExpr

theorem leaf_ofBare_of_isGeneric {token : String} (h : (ofBare token).isGeneric = true) :
    (ofBare token).leaf = name Scalar.byte.codeName := by
  unfold ofBare at h ⊢
  split
  · rfl
  · next hne => rw [if_neg hne] at h; cases h

/-- Without a bracket, a token stands for a plain name or for `bytes` written out. -/
theorem plain_of_parseChars {cs : List Char} {e : TypeExpr} (h : '<' ∉ cs)
    (he : parseChars cs = .ok e) (hgen : e.isGeneric = true) : e.leaf = name Scalar.byte.codeName := by
  have hcut : cutBrackets (Text.trim cs) = none := cutBrackets_eq_none fun hmem => h (mem_of_mem_trim hmem)
  rw [parseChars] at he
  split at he
  · next b hb => rw [hcut] at hb; cases hb
  · split at he
    · cases he
    · cases he
      exact leaf_ofBare_of_isGeneric hgen

end TypeExpr

theorem Signature.isIdentifier_name {text : String} {d : Signature} (h : parse text = .ok d) :
    isIdentifier d.name = true := by
  unfold parse at h
  cases hrow : TokenRow.ofLine text with
  | error fault => rw [hrow] at h; cases h
  | ok row =>
    rw [hrow] at h
    replace h : ofRow row = .ok d := h
    unfold ofRow at h
    split at h
    · next name column rest _ =>
      split at h
      · next hid =>
        cases hf : parseFields row.endColumn rest with
        | error fault => rw [hf] at h; cases h
        | ok p => rw [hf] at h; cases h; exact hid
      · cases h
    · cases h

/-- A declaration in a text was read from a line. -/
theorem Schema.exists_parse_of_mem_contents {text : String} {decl : Declaration}
    (hd : .declaration decl ∈ contents text) : ∃ line, Signature.parse line = .ok decl.toSignature := by
  obtain ⟨r, hr, hitem⟩ := List.mem_filterMap.mp hd
  obtain ⟨b, -, rfl⟩ := List.mem_map.mp hr
  unfold Block.read at hitem
  split at hitem
  · split at hitem <;> cases hitem
  · split at hitem
    · cases hitem
    · split at hitem
      · next hparse => cases hitem; exact ⟨_, hparse⟩
      · cases hitem

theorem Schema.isIdentifier_of_mem_contents {text : String} {decl : Declaration}
    (hd : .declaration decl ∈ contents text) : Signature.isIdentifier decl.name = true := by
  obtain ⟨line, hparse⟩ := exists_parse_of_mem_contents hd
  exact Signature.isIdentifier_name hparse

theorem plain_of_isIdentifier {decl : Declaration} {k : Clause} {kind : Admission.Kind}
    (hid : Signature.isIdentifier decl.name = true)
    (hk : (Item.declaration decl).clause? kind = some k) : k.Plain := by
  cases kind with
  | types =>
    simp only [Item.clause?] at hk
    split at hk
    · cases hk; trivial
    · obtain ⟨d, hd, rfl⟩ := Option.map_eq_some_iff.mp hk
      have hname := TypeExpr.parse?_eq_some_iff.mp (Declaration.shape?_eq_some_iff.mp hd).1
      refine TypeExpr.plain_of_parseChars (fun hmem => ?_) hname
      have hchar := List.all_eq_true.mp hid _ hmem
      revert hchar
      decide
  | functions =>
    obtain ⟨d, -, rfl⟩ := Option.map_eq_some_iff.mp hk
    trivial

/-! ### Strict compilations -/

namespace Registry
variable {g : Registry} {id : TypeId}

/-- A generic union or a generic result, below which verification does not look. -/
def Unwalked (g : Registry) (id : TypeId) : Prop :=
  (g.get id).argument.isSome = true ∧
    ((g.get id).isUnion = true ∨ ∃ f ∈ g.functions, f.result = id)

/-- In a verified registry, a type with a unit and without a declaration is the leaf of a generic
union or result. -/
theorem unwalked_of_hasUnit (hg : g.Closed) (ha : g.catalogue.Accounted) (hv : g.catalogue.Verified)
    (hid : id < g.size) (hunit : g.hasUnit id = true) (hd : (g.get id).isDeclared = false) :
    ∃ j < g.size, g.Unwalked j ∧ (g.leaf j).1 = id := by
  simp only [hasUnit, Bool.and_eq_true, Bool.not_eq_true', Option.isNone_iff_eq_none] at hunit
  obtain ⟨⟨-, hnone⟩, hu⟩ := hunit
  have hexpr := exprAt_of_none hnone
  have hunknown : (g.entry (.name (g.key id).name)).isKnown = false := by
    rw [← hexpr, entry_exprAt hg.toSound hid]
    simp only [Entry.isKnown, entryOf, hd, hu, Bool.or_false]
  have hholds : g.catalogue.Holds (.name (g.key id).name) := by
    rw [← hexpr]
    show (g.findExpr? (g.exprAt id)).isSome = true
    rw [hg.findExpr?_exprAt hid]; rfl
  have hknown : ∀ e : TypeExpr, g.catalogue.Knows e → e.leaf ≠ .name (g.key id).name := by
    intro e he hl
    rw [Catalogue.Knows, hl] at he
    exact Bool.false_ne_true (hunknown.symm.trans he)
  rcases ha.accounts _ hholds with h | (⟨e, f, hf, hl⟩ | ⟨f, hf, a, harg, hl⟩) | ⟨e, he, hgen, hl, h⟩
  · exact absurd (hunknown.symm.trans h) Bool.false_ne_true
  · exact absurd hl (hknown _ (hv.1 e f hf))
  · exact absurd hl (hknown _ (hv.2 f hf a harg))
  · obtain ⟨j, hj⟩ := Option.isSome_iff_exists.mp he
    have hlt := hg.lt_size_of_findExpr? hj
    have hje := hg.exprAt_of_findExpr? hj
    refine ⟨j, hlt, ⟨?_, h.imp (fun hu => ?_) ?_⟩, ?_⟩
    · exact (isSome_argument hg.toSound hj).trans hgen
    · rwa [show g.catalogue.entry e = _ from entry_of_findExpr? hj] at hu
    · rintro ⟨fe, hfe, hr⟩
      obtain ⟨f, hf, rfl⟩ := List.mem_map.mp (Multiset.mem_coe.mp hfe)
      have hf := Array.mem_toList_iff.mp hf
      exact ⟨f, hf, hg.exprAt_inj (hg.result_lt f hf) hlt (hr.trans hje.symm)⟩
    · refine hg.exprAt_inj (Nat.lt_of_le_of_lt (leaf_le g j) hlt) hid ?_
      rw [exprAt_leaf hg.toSound, hje, hl, hexpr]

/-- Where every type with a unit is declared, every leaf is known: one that is neither a scalar nor a
union has a unit. -/
theorem known_leaf (hg : g.Closed) (hs : g.catalogue.ScalarsDeclared)
    (hall : ∀ id < g.size, g.hasUnit id = true → (g.get id).isDeclared = true) (hid : id < g.size) :
    (g.get (g.leaf id).1).isDeclared = true ∨ (g.get (g.leaf id).1).isUnion = true := by
  have hlt := Nat.lt_of_le_of_lt (leaf_le g id) hid
  cases hu : (g.get (g.leaf id).1).isUnion with
  | true => exact .inr rfl
  | false =>
    refine .inl ?_
    cases hc : (g.get (g.leaf id).1).scalar with
    | some x =>
      have hscalar := hs (g.exprAt (g.leaf id).1)
      rw [show g.catalogue.entry _ = _ from entry_exprAt hg.toSound hlt] at hscalar
      exact hscalar (by rw [entryOf, hc]; rfl)
    | none =>
      refine hall _ hlt ?_
      simp only [hasUnit, hc, hu, argument_leaf hg.toSound hid]
      rfl

end Registry

namespace Compile
open Registry
variable {o : Options} {kind : Admission.Kind} {file text : String} {c c' : Compilation} {t : Tally}

theorem add_accounted (hc : c.registry.Closed) (ha : c.registry.catalogue.Accounted)
    (h : (add o kind file text).run c = .ok t c') :
    c'.registry.Closed ∧ c'.registry.catalogue.Accounted := by
  refine add_keeps (fun i hi k hk s hfits hs => hs.apply hfits ?_) hc ha h
  cases i with
  | declaration decl => exact plain_of_isIdentifier (Schema.isIdentifier_of_mem_contents hi) hk
  | union name d line =>
    obtain ⟨e, -, rfl⟩ := Option.map_eq_some_iff.mp hk
    trivial

/-- After a strict compilation that passes verification, a class without a declaration comes from the
leaf of a generic union or result; so all classes have one exactly if these leaves are known. -/
theorem complete_iff_leaves_known (ho : o.strict = true) {types functions : String × String}
    (h : (do addBoth o types functions; verify o).run {} = .ok () c) :
    (∀ id < c.registry.size, c.registry.hasUnit id = true → (c.registry.get id).isDeclared = false →
      ∃ j < c.registry.size, c.registry.Unwalked j ∧ (c.registry.leaf j).1 = id) ∧
    ((∀ id < c.registry.size, c.registry.hasUnit id = true → (c.registry.get id).isDeclared = true) ↔
      ∀ id < c.registry.size, c.registry.Unwalked id →
        (c.registry.get (c.registry.leaf id).1).isDeclared = true ∨
          (c.registry.get (c.registry.leaf id).1).isUnion = true) := by
  obtain ⟨_, c₂, hboth, hverify⟩ := run_bind_eq_ok h
  obtain ⟨t₁, c₁, t₂, htypes, hfunctions⟩ := run_addBoth_eq_ok_iff.mp hboth
  obtain ⟨hnil, rfl⟩ := (run_verify_strict_eq_ok ho).mp hverify
  obtain ⟨hc₁, ha₁⟩ := add_accounted closed_initial Catalogue.accounted_initial htypes
  obtain ⟨hc, ha⟩ := add_accounted hc₁ ha₁ hfunctions
  have hv := (undeclared_eq_nil_iff hc).mp hnil
  refine ⟨fun id hid hunit hd => unwalked_of_hasUnit hc ha hv hid hunit hd,
    fun hall id hid _ => known_leaf hc ha.scalar hall hid, fun hall id hid hunit => ?_⟩
  cases hd : (c.registry.get id).isDeclared with
  | true => rfl
  | false =>
    obtain ⟨j, hj, hun, hleaf⟩ := unwalked_of_hasUnit hc ha hv hid hunit hd
    have hknown := hall j hj hun
    rw [hleaf, hd] at hknown
    simp only [hasUnit, Bool.and_eq_true, Bool.not_eq_true'] at hunit
    rcases hknown with hknown | hknown
    · cases hknown
    · rw [hunit.2] at hknown; cases hknown

/-- The registry of one function whose result is a sequence of a type that is never declared. -/
def unseenLeaf : Registry where
  records := (initial.records.push { name := "foo" }).push { name := "vector<foo>", argument := some 7 }
  functions := #[⟨"getFoos", none, [], 8⟩]
  index := (⟨"vector", some 7⟩, 8) :: (⟨"foo", none⟩, 7) :: initial.index
  functionIndex := [("getFoos", 0)]

theorem addItem_unseenLeaf :
    (Admission.addItem .functions (.declaration ⟨⟨"getFoos", [], "vector<foo>"⟩, 1, {}⟩)).run initial =
      .ok .declared unseenLeaf := by
  have hok : (match (Admission.addItem .functions
      (.declaration ⟨⟨"getFoos", [], "vector<foo>"⟩, 1, {}⟩)).run initial with
    | .ok o g => decide (o = .declared ∧ g = unseenLeaf)
    | .error _ _ => false) = true := by decide +kernel
  split at hok
  · next h =>
    obtain ⟨rfl, rfl⟩ := of_decide_eq_true hok
    exact h
  · cases hok

theorem run_unseenLeaf :
    (do addBoth {} ("types", "") ("functions", "getFoos = vector<foo>;"); verify {}).run {} =
      .ok () ⟨unseenLeaf, #[.added "types" 0 0 0, .added "functions" 1 1 0]⟩ := by
  have htypes : (add {} .types "types" "").run {} = .ok {} ⟨initial, #[.added "types" 0 0 0]⟩ := by
    have hitems : Schema.items true "types" "" = .ok [] := by decide +kernel
    have hnotices : Schema.notices true "types" "" = [] := by decide +kernel
    have hrun : (addItems true "types" .types []).run (told {} (Schema.notices true "types" "")) =
      .ok {} {} := by rw [hnotices, told_nil]; rfl
    exact run_add_of_ok (o := {}) hitems hrun
  have hfunctions : (add {} .functions "functions" "getFoos = vector<foo>;").run
      ⟨initial, #[.added "types" 0 0 0]⟩ = .ok ⟨1, 0⟩
        ⟨unseenLeaf, #[.added "types" 0 0 0, .added "functions" 1 1 0]⟩ := by
    have hitems : Schema.items true "functions" "getFoos = vector<foo>;" =
        .ok [.declaration ⟨⟨"getFoos", [], "vector<foo>"⟩, 1, {}⟩] := by decide +kernel
    have hnotices : Schema.notices true "functions" "getFoos = vector<foo>;" = [] := by
      decide +kernel
    have hrun : (addItems true "functions" .functions
        [.declaration ⟨⟨"getFoos", [], "vector<foo>"⟩, 1, {}⟩]).run
          (told ⟨initial, #[.added "types" 0 0 0]⟩
            (Schema.notices true "functions" "getFoos = vector<foo>;")) =
        .ok ⟨1, 0⟩ ⟨unseenLeaf, #[.added "types" 0 0 0]⟩ := by
      rw [hnotices, told_nil, addItems,
        run_foldlM_cons_ok (run_addItem_ok addItem_unseenLeaf true "functions" {})]
      rfl
    exact run_add_of_ok (o := {}) hitems hrun
  have hboth : (addBoth {} ("types", "") ("functions", "getFoos = vector<foo>;")).run {} =
      .ok () ⟨unseenLeaf, #[.added "types" 0 0 0, .added "functions" 1 1 0]⟩ :=
    run_addBoth_eq_ok_iff.mpr ⟨_, _, _, htypes, hfunctions⟩
  rw [run_bind_ok hboth]
  exact (run_verify_strict_eq_ok rfl).mpr ⟨by decide +kernel, rfl⟩

/-- The element of a sequence that a function gives back has a class and no declaration. -/
theorem complete_iff_leaves_known_unseen :
    (do addBoth {} ("types", "") ("functions", "getFoos = vector<foo>;"); verify {}).run {} =
        .ok () ⟨unseenLeaf, #[.added "types" 0 0 0, .added "functions" 1 1 0]⟩ ∧
      (unseenLeaf.hasUnit 7 = true ∧ (unseenLeaf.get 7).isDeclared = false) ∧
      ∃ j < unseenLeaf.size, unseenLeaf.Unwalked j ∧ (unseenLeaf.leaf j).1 = 7 := by
  have hunit : unseenLeaf.hasUnit 7 = true := by decide
  have hdecl : (unseenLeaf.get 7).isDeclared = false := by decide
  refine ⟨run_unseenLeaf, ⟨hunit, hdecl⟩, ?_⟩
  exact (complete_iff_leaves_known rfl run_unseenLeaf).1 7 (by decide) hunit hdecl

/-- A strict compilation may pass verification and leave a class without a declaration. -/
theorem verified_not_complete :
    ¬ ∀ (o : Options) (types functions : String × String) (c : Compilation), o.strict = true →
      (do addBoth o types functions; verify o).run {} = .ok () c →
      ∀ id < c.registry.size, c.registry.hasUnit id = true →
        (c.registry.get id).isDeclared = true := by
  intro h
  have hunit : unseenLeaf.hasUnit 7 = true := by decide
  have hdecl : (unseenLeaf.get 7).isDeclared = true := h {} _ _ _ rfl run_unseenLeaf 7 (by decide) hunit
  revert hdecl
  decide

end Compile

end TypeLang
