import TypeLang.Proofs.Unions
import TypeLang.Proofs.Words

/-! # Where names come from

Every name in a registry was written in a schema, and the way it was written says what it can look
like. `Traced is s`: what is declared in the catalogue `s`, and every type without an argument in a
field, is an identifier or a scalar, and all generic types of fields, unions and results are written
in the items `is`. Every clause of these items keeps this (`Traced.apply`). With `Accounted`, which
says why a name has a record at all, it leaves one way for a class to get a name that is no
identifier: the leaf of a generic type that is written in the schema (`traced_of_hasUnit`). -/

namespace TypeLang

open Naming Registry

/-! ### What a schema writes -/

/-- The types that an item writes, apart from the name that it declares. -/
def Item.tokens : Item → List String
  | .declaration decl => decl.result :: decl.fields.map (·.type)
  | .union name _ _ => [name]

/-- One of the items writes the type. -/
def Mentions (is : List Item) (e : TypeExpr) : Prop :=
  ∃ i ∈ is, ∃ token ∈ i.tokens, TypeExpr.parse? token = some e

/-- Without an argument the type is an identifier or a scalar; otherwise one of the items writes
it. -/
def TypeExpr.Traced (is : List Item) : TypeExpr → Prop
  | name n => isName n = true ∨ ∃ c : Scalar, n = c.codeName
  | generic outer a => Mentions is (generic outer a)

theorem TypeExpr.Traced.of_mentions {is : List Item} {e : TypeExpr} (hgen : e.isGeneric = true)
    (h : Mentions is e) : e.Traced is := by
  cases e with
  | name n => cases hgen
  | generic outer a => exact h

structure Shape.Traced (is : List Item) (s : Shape) : Prop where
  fields : ∀ f ∈ s.fields, f.type.Traced is
  result : s.result.isGeneric = true → Mentions is s.result

/-- The clause declares an identifier, and what it uses is traced. -/
def Clause.Traced (is : List Item) : Clause → Prop
  | skip => True
  | type s _ => (∃ n, isName n = true ∧ s.name = TypeExpr.ofBare n) ∧ s.Traced is
  | function n s _ => isName n = true ∧ s.Traced is
  | union e _ => e.isGeneric = true → Mentions is e

theorem Schema.spelled_of_mem_contents {text : String} {decl : Declaration}
    (h : .declaration decl ∈ contents text) : decl.toSignature.Spelled := by
  obtain ⟨line, hparse⟩ := exists_parse_of_mem_contents h
  exact Signature.spelled_of_parse hparse

theorem exists_spec_of_mem_shapes {docs : DocTags} {fs : List FieldSpec} {es : List FieldShape}
    (h : fs.mapM (FieldSpec.shape? docs) = some es) {e : FieldShape} (he : e ∈ es) :
    ∃ f ∈ fs, TypeExpr.parse? f.type = some e.type := by
  induction fs generalizing es with
  | nil => cases h; cases he
  | cons f fs ih =>
    simp only [List.mapM_cons, Option.bind_eq_bind, Option.bind_eq_some_iff, Option.pure_def,
      Option.some.injEq] at h
    obtain ⟨e', he', es', hes, rfl⟩ := h
    obtain ⟨type, htype, rfl⟩ := Option.map_eq_some_iff.mp he'
    rcases List.mem_cons.mp he with rfl | he
    · exact ⟨f, List.mem_cons_self, htype⟩
    · obtain ⟨f', hf', h'⟩ := ih hes he
      exact ⟨f', List.mem_cons_of_mem f hf', h'⟩

theorem traced_shape {is : List Item} {decl : Declaration} {s : Shape}
    (hi : .declaration decl ∈ is) (hd : decl.toSignature.Spelled) (hs : decl.shape? = some s) :
    s.Traced is := by
  obtain ⟨-, hfields, hresult⟩ := Declaration.shape?_eq_some_iff.mp hs
  refine ⟨fun e he => ?_, fun _ => ⟨_, hi, decl.result, List.mem_cons_self, hresult⟩⟩
  obtain ⟨f, hf, hparse⟩ := exists_spec_of_mem_shapes hfields he
  cases htype : e.type with
  | name n =>
    rw [htype] at hparse
    exact TypeExpr.name_of_isWord (hd.fields f hf) hparse
  | generic outer a =>
    rw [htype] at hparse
    exact ⟨_, hi, f.type, List.mem_cons_of_mem _ (List.mem_map_of_mem hf), hparse⟩

theorem traced_clause {is : List Item} {text : String} {kind : Admission.Kind} {i : Item} {k : Clause}
    (hi : i ∈ Schema.contents text) (his : i ∈ is) (hk : i.clause? kind = some k) : k.Traced is := by
  cases i with
  | declaration decl =>
    have hspelled := Schema.spelled_of_mem_contents hi
    cases kind with
    | types =>
      simp only [Item.clause?] at hk
      split at hk
      · cases hk; trivial
      · obtain ⟨s, hs, rfl⟩ := Option.map_eq_some_iff.mp hk
        refine ⟨⟨decl.name, hspelled.name, ?_⟩, traced_shape his hspelled hs⟩
        have hname := hspelled.name
        rw [isName, Bool.and_eq_true] at hname
        have hparse := (Declaration.shape?_eq_some_iff.mp hs).1
        rw [parse?_of_isIdentifier hname.2] at hparse
        exact (Option.some.inj hparse).symm
    | functions =>
      obtain ⟨s, hs, rfl⟩ := Option.map_eq_some_iff.mp hk
      exact ⟨hspelled.name, traced_shape his hspelled hs⟩
  | union name d line =>
    obtain ⟨e, he, rfl⟩ := Option.map_eq_some_iff.mp hk
    exact fun _ => ⟨_, his, name, List.mem_singleton_self name, he⟩

/-! ### Catalogues -/

namespace Catalogue
variable {is : List Item} {s : Catalogue} {k : Clause} {e : TypeExpr} {n : String}

/-- All that stands in the catalogue was written in the items, and as names are written. -/
structure Traced (is : List Item) (s : Catalogue) : Prop where
  accounted : s.Accounted
  settled : s.Settled
  declared : ∀ n, (s.entry (.name n)).isConcrete = true → isName n = true
  fields : ∀ x, ∀ f ∈ (s.entry x).fields, f.type.Traced is
  unions : ∀ x, (s.entry x).isUnion = true → x.isGeneric = true → Mentions is x
  functions : ∀ f ∈ s.functions, isName f.name = true ∧ (∀ a ∈ f.arguments, a.type.Traced is) ∧
    (f.result.isGeneric = true → Mentions is f.result)

theorem plain_of_traced (hk : k.Traced is) : k.Plain := by
  cases k with
  | type a d =>
    obtain ⟨⟨m, -, hm⟩, -⟩ := hk
    intro hgen
    rw [hm] at hgen ⊢
    exact TypeExpr.leaf_ofBare_of_isGeneric hgen
  | _ => trivial

/-- A plain name that a clause declares is an identifier: scalars are not declared again. -/
theorem isName_of_declares {a : Shape} {d : Option String} (hs : s.Settled)
    (hfits : (Clause.type a d).Fits s) (hk : (Clause.type a d).Traced is)
    (hn : a.name = .name n) : isName n = true := by
  obtain ⟨⟨m, hm, hname⟩, -⟩ := hk
  rw [hname] at hn
  rcases TypeExpr.leaf_ofBare m with hbare | ⟨c, hc⟩
  · rw [hbare] at hn
    cases hn
    exact hm
  · rw [hn] at hc
    cases hc
    have hdeclared := hs.scalar c
    rw [← hn, ← hname, hfits.1.1] at hdeclared
    cases hdeclared

theorem Traced.apply (hs : s.Traced is) (hfits : k.Fits s) (hk : k.Traced is) :
    (k.apply s).Traced is := by
  have hacc := hs.accounted.apply hfits (plain_of_traced hk)
  have hset := hs.settled.apply hfits
  cases k with
  | skip => exact hs
  | type a d =>
    refine ⟨hacc, hset, fun n hn => ?_, fun x f hf => ?_, fun x hu hgen => ?_, hs.functions⟩
    · by_cases hname : .name n = a.name
      · exact isName_of_declares hs.settled hfits hk hname.symm
      · rw [Clause.isConcrete_type hname] at hn
        exact hs.declared n hn
    · simp only [Clause.apply, modify, hold] at hf
      split at hf
      · exact hk.2.fields f hf
      · split at hf <;> exact hs.fields x f hf
    · simp only [Clause.apply, modify, hold] at hu
      split at hu
      · exact hs.unions x hu hgen
      · split at hu
        · next hx => rw [hx] at hgen ⊢; exact hk.2.result hgen
        · exact hs.unions x hu hgen
  | function m a d =>
    refine ⟨hacc, hset, fun n hn => ?_, fun x f hf => ?_, fun x hu hgen => ?_, fun f hf => ?_⟩
    · rw [Clause.isConcrete_function] at hn
      exact hs.declared n hn
    · simp only [Clause.apply, modify, hold, push] at hf
      split at hf <;> exact hs.fields x f hf
    · simp only [Clause.apply, modify, hold, push] at hu
      split at hu
      · next hx => rw [hx] at hgen ⊢; exact hk.2.result hgen
      · exact hs.unions x hu hgen
    · rcases Multiset.mem_cons.mp hf with rfl | hf
      · exact ⟨hk.1, hk.2.fields, hk.2.result⟩
      · exact hs.functions f hf
  | union e d =>
    refine ⟨hacc, hset, fun n hn => ?_, fun x f hf => ?_, fun x hu hgen => ?_, hs.functions⟩
    · rw [Clause.isConcrete_union] at hn
      exact hs.declared n hn
    · simp only [Clause.apply, modify, hold] at hf
      split at hf <;> exact hs.fields x f hf
    · simp only [Clause.apply, modify, hold] at hu
      split at hu
      · next hx => rw [hx] at hgen ⊢; exact hk hgen
      · exact hs.unions x hu hgen

theorem Settled.not_scalar (hs : s.Settled) (h : (s.entry (.name n)).isKnown = false) :
    ¬ ∃ c : Scalar, n = c.codeName := by
  rintro ⟨c, rfl⟩
  rw [Entry.isKnown, hs.scalar c] at h
  cases h

theorem isUnion_entry_initial (x : TypeExpr) : (initial.entry x).isUnion = false := by
  cases he : initial.findExpr? x with
  | none => rw [entry_of_none he]
  | some id =>
    have hall : ∀ id < initial.size, (initial.get id).isUnion = false := by decide
    rw [entry_of_findExpr? he, entryOf, hall id (Sound.initial.lt_size_of_findExpr? he)]

theorem traced_initial (is : List Item) : initial.catalogue.Traced is where
  accounted := accounted_initial
  settled := settled_initial
  declared n hn := by
    rw [show (initial.catalogue.entry (.name n)).isConcrete = false from isConcrete_entry_initial _] at hn
    cases hn
  fields x f hf := by
    rw [(grouped_initial.idle x (isConcrete_entry_initial x)).1] at hf
    cases hf
  unions x hu := by
    rw [show (initial.catalogue.entry x).isUnion = false from isUnion_entry_initial x] at hu
    cases hu
  functions f hf := by cases hf

end Catalogue

/-! ### Registries -/

namespace Registry
variable {g : Registry} {is : List Item} {id j : TypeId} {n : String}

/-- The leaf of a generic type that one of the items writes. -/
def Wrapped (g : Registry) (is : List Item) (id : TypeId) : Prop :=
  ∃ j < g.size, (g.get j).argument.isSome = true ∧ (g.leaf j).1 = id ∧ Mentions is (g.exprAt j)

theorem wrapped_of_leaf (hg : g.Sound) (hid : id < g.size) (hj : j < g.size)
    (hgen : (g.exprAt j).isGeneric = true) (hleaf : (g.exprAt j).leaf = g.exprAt id)
    (hm : Mentions is (g.exprAt j)) : g.Wrapped is id := by
  refine ⟨j, hj, (isSome_argument hg (hg.findExpr?_exprAt hj)).trans hgen, ?_, hm⟩
  refine hg.exprAt_inj (Nat.lt_of_le_of_lt (leaf_le g j) hj) hid ?_
  rw [exprAt_leaf hg, hleaf]

theorem exists_place_of_holds (hg : g.Sound) {e : TypeExpr} (he : g.catalogue.Holds e) :
    ∃ j < g.size, g.exprAt j = e := by
  obtain ⟨j, hj⟩ := Option.isSome_iff_exists.mp he
  exact ⟨j, hg.lt_size_of_findExpr? hj, hg.exprAt_of_findExpr? hj⟩

theorem exists_place_of_field (hg : g.Closed) {e : TypeExpr} {f : FieldShape}
    (hf : f ∈ (g.entry e).fields) : ∃ j < g.size, g.exprAt j = f.type := by
  revert e f
  rw [forall_entry_fields_iff hg (P := fun f => ∃ j < g.size, g.exprAt j = f.type)]
  intro r hr f hf
  obtain ⟨id, -, rfl⟩ := mem_records_iff.mp hr
  exact ⟨f.type, hg.field_lt id f hf, rfl⟩

theorem exists_place_of_argument (hg : g.Closed) {fe : FunctionEntry} {a : FieldShape}
    (hf : fe ∈ g.catalogue.functions) (ha : a ∈ fe.arguments) : ∃ j < g.size, g.exprAt j = a.type := by
  obtain ⟨f, hmem, rfl⟩ := List.mem_map.mp (Multiset.mem_coe.mp hf)
  obtain ⟨b, hb, rfl⟩ := List.mem_map.mp ha
  exact ⟨b.type, hg.argument_lt f (Array.mem_toList_iff.mp hmem) b hb, rfl⟩

/-- A name that is not known is the leaf of a type that was traced. -/
theorem exists_traced_place (hg : g.Closed) (ht : g.catalogue.Traced is)
    (hholds : g.catalogue.Holds (.name n)) (hunknown : (g.entry (.name n)).isKnown = false) :
    ∃ j < g.size, (g.exprAt j).Traced is ∧ (g.exprAt j).leaf = .name n := by
  -- it is in a field, in an argument, or in the generic result or union `e`
  rcases ht.accounted.accounts n hholds with h | (⟨e, f, hf, hl⟩ | ⟨f, hf, a, ha, hl⟩) |
    ⟨e, he, hgen, hl, h⟩
  · exact absurd (hunknown.symm.trans h) Bool.false_ne_true
  · obtain ⟨j, hj, htype⟩ := exists_place_of_field hg hf
    exact ⟨j, hj, by rw [htype]; exact ht.fields e f hf, by rw [htype]; exact hl⟩
  · obtain ⟨j, hj, htype⟩ := exists_place_of_argument hg hf ha
    exact ⟨j, hj, by rw [htype]; exact (ht.functions f hf).2.1 a ha, by rw [htype]; exact hl⟩
  · have hmention : Mentions is e := by
      rcases h with h | ⟨f, hf, rfl⟩
      · exact ht.unions e h hgen
      · exact (ht.functions f hf).2.2 hgen
    obtain ⟨j, hj, rfl⟩ := exists_place_of_holds hg.toSound he
    exact ⟨j, hj, .of_mentions hgen hmention, hl⟩

theorem of_hasUnit (hg : g.Sound) (hunit : g.hasUnit id = true) :
    (g.get id).scalar = none ∧ (g.get id).isUnion = false ∧ g.exprAt id = .name (g.get id).name := by
  simp only [hasUnit, Bool.and_eq_true, Bool.not_eq_true', Option.isNone_iff_eq_none] at hunit
  obtain ⟨⟨hscalar, hnone⟩, hu⟩ := hunit
  have hexpr := exprAt_of_none hnone
  rw [hg.name_get, hexpr]
  exact ⟨hscalar, hu, rfl⟩

/-- A type with a unit is no union, so it is known only if it is declared. -/
theorem isKnown_of_hasUnit (hg : g.Sound) (hid : id < g.size) (hunit : g.hasUnit id = true) :
    (g.entry (.name (g.get id).name)).isKnown = (g.get id).isDeclared := by
  obtain ⟨-, hu, hexpr⟩ := of_hasUnit hg hunit
  rw [← hexpr, entry_exprAt hg hid, Entry.isKnown, entryOf, hu, Bool.or_false]

/-- The name of a type with a unit is an identifier, unless the type is not declared and is the leaf
of a generic type that is written in the items. -/
theorem traced_of_hasUnit (hg : g.Closed) (ht : g.catalogue.Traced is) (hid : id < g.size)
    (hunit : g.hasUnit id = true) :
    isName (g.get id).name = true ∨ (g.get id).isDeclared = false ∧ g.Wrapped is id := by
  obtain ⟨hscalar, -, hexpr⟩ := of_hasUnit hg.toSound hunit
  cases hd : (g.get id).isDeclared with
  | true =>
    refine .inl (ht.declared _ ?_)
    show (g.entry _).isConcrete = true
    rw [← hexpr, entry_exprAt hg.toSound hid, isConcrete_entryOf, isConcrete_iff]
    exact ⟨hd, hscalar⟩
  | false =>
    have hholds : g.catalogue.Holds (.name (g.get id).name) := by
      rw [← hexpr]
      show (g.findExpr? (g.exprAt id)).isSome = true
      rw [hg.findExpr?_exprAt hid]
      rfl
    have hunknown := (isKnown_of_hasUnit hg.toSound hid hunit).trans hd
    obtain ⟨j, hj, htraced, hleaf⟩ := exists_traced_place hg ht hholds hunknown
    -- a type without an argument is its own leaf, and so what is traced is the name
    cases he : g.exprAt j with
    | name m =>
      rw [he] at htraced hleaf
      cases hleaf
      exact .inl (htraced.resolve_right (ht.settled.not_scalar hunknown))
    | generic outer a =>
      refine .inr ⟨rfl, wrapped_of_leaf hg.toSound hid hj (by rw [he]; rfl) (hleaf.trans hexpr.symm) ?_⟩
      rw [he] at htraced ⊢
      exact htraced

/-- What the documentation of a union names is free text. Where it holds no bracket, the leaf of a
generic type comes from a line or is a scalar, so that a class gets a stem for its name. -/
theorem isStem_of_wrapped (hg : g.Closed) (ht : g.catalogue.Traced is)
    (hlines : ∀ decl, .declaration decl ∈ is → decl.toSignature.Spelled)
    (hdocs : ∀ name d line, .union name d line ∈ is → '<' ∉ name.toList) (hid : id < g.size)
    (hunit : g.hasUnit id = true) (hd : (g.get id).isDeclared = false) (hw : g.Wrapped is id) :
    isStem (g.get id).name = true := by
  obtain ⟨-, -, hexpr⟩ := of_hasUnit hg.toSound hunit
  obtain ⟨j, hj, harg, hleaf, i, hi, token, htoken, hparse⟩ := hw
  have hnot := ht.settled.not_scalar ((isKnown_of_hasUnit hg.toSound hid hunit).trans hd)
  have hname : (g.exprAt j).leaf = .name (g.get id).name := by
    rw [← exprAt_leaf hg.toSound, hleaf, hexpr]
  cases i with
  | declaration decl =>
    have hword : Token.isWord token = true := by
      rcases List.mem_cons.mp htoken with rfl | htoken
      · exact (hlines decl hi).result
      · obtain ⟨f, hf, rfl⟩ := List.mem_map.mp htoken
        exact (hlines decl hi).fields f hf
    exact (TypeExpr.leaf_of_isWord hword hparse hname).resolve_right hnot
  | union name d line =>
    obtain rfl := List.mem_singleton.mp htoken
    have hgen := (isSome_argument hg.toSound (hg.findExpr?_exprAt hj)).symm.trans harg
    -- without a bracket only the name of a sequence of bytes is generic
    have hbyte := TypeExpr.plain_of_parseChars (hdocs token d line hi)
      (TypeExpr.parse?_eq_some_iff.mp hparse) hgen
    rw [hname] at hbyte
    exact absurd ⟨.byte, TypeExpr.name.inj hbyte⟩ hnot

end Registry

/-! ### Compilations -/

namespace Compile
open Registry
variable {o : Options} {kind : Admission.Kind} {file text : String} {c c' : Compilation} {t : Tally}
  {is : List Item}

theorem add_traced (his : ∀ i ∈ Schema.contents text, i ∈ is) (hc : c.registry.Closed)
    (ht : c.registry.catalogue.Traced is) (h : (add o kind file text).run c = .ok t c') :
    c'.registry.Closed ∧ c'.registry.catalogue.Traced is :=
  add_keeps (fun i hi _ hk _ hfits hs => hs.apply hfits (traced_clause hi (his i hi) hk)) hc ht h

theorem registry_of_verify {x : Unit} (h : (verify o).run c = .ok x c') : c'.registry = c.registry := by
  cases ho : o.strict with
  | true =>
    obtain ⟨-, rfl⟩ := (run_verify_strict_eq_ok ho).mp h
    rfl
  | false =>
    rw [run_verify_lenient ho] at h
    cases h
    rfl

/-- A compilation that succeeds has added both schemas, and the files are the units of its
registry. -/
theorem compileSchemas_eq_ok {types functions : String} {g : Registry} {files : List OutputFile}
    {log : Array Notice} (h : compileSchemas o types functions = (.ok (g, files), log)) :
    (∃ t₁ c₁ t₂ c₂, (add o .types "types" types).run {} = .ok t₁ c₁ ∧
      (add o .functions "functions" functions).run c₁ = .ok t₂ c₂ ∧ c₂.registry = g) ∧
    files = g.units.map fun u => ⟨u.path o.code, u.render o.code⟩ := by
  unfold compileSchemas at h
  split at h
  · next files' c hrun =>
    cases h
    obtain ⟨_, c₂, hboth, hrun⟩ := run_bind_eq_ok hrun
    obtain ⟨_, c₃, hverify, hrun⟩ := run_bind_eq_ok hrun
    obtain ⟨t₁, c₁, t₂, htypes, hfunctions⟩ := run_addBoth_eq_ok_iff.mp hboth
    cases hrun
    exact ⟨⟨t₁, c₁, t₂, c₂, htypes, hfunctions, (registry_of_verify hverify).symm⟩, rfl⟩
  · cases h

/-- What is known of the registry of a compilation that succeeds, and of its files. -/
structure Compiled (is : List Item) (g : Registry) (code : CodeOptions) (files : List OutputFile) :
    Prop where
  built : g.Built
  traced : g.catalogue.Traced is
  files : files = g.units.map fun u => ⟨u.path code, u.render code⟩

theorem compiled_of_ok {types functions : String} {g : Registry} {files : List OutputFile}
    {log : Array Notice} (h : compileSchemas o types functions = (.ok (g, files), log)) :
    Compiled (Schema.contents types ++ Schema.contents functions) g o.code files := by
  obtain ⟨⟨t₁, c₁, t₂, c₂, htypes, hfunctions, rfl⟩, hfiles⟩ := compileSchemas_eq_ok h
  obtain ⟨hc₁, ht₁⟩ := add_traced (fun i hi => List.mem_append_left _ hi) closed_initial
    (Catalogue.traced_initial _) htypes
  obtain ⟨-, ht₂⟩ := add_traced (fun i hi => List.mem_append_right _ hi) hc₁ ht₁ hfunctions
  have hlead₁ := Leading.add o .types "types" types {}
  have hlead₂ := Leading.add o .functions "functions" functions c₁
  rw [after_of_ok htypes] at hlead₁
  rw [after_of_ok hfunctions] at hlead₂
  exact ⟨hlead₁.trans hlead₂, ht₂, hfiles⟩

/-- The compilation succeeds, and its registry and files pass the test. -/
def yields (o : Options) (types functions : String) (test : Registry → List OutputFile → Bool) : Bool :=
  match compileSchemas o types functions with
  | (.ok (g, files), _) => test g files
  | (.error _, _) => false

theorem exists_of_yields {types functions : String} {test : Registry → List OutputFile → Bool}
    (h : yields o types functions test = true) :
    ∃ g files log, compileSchemas o types functions = (.ok (g, files), log) ∧ test g files = true := by
  unfold yields at h
  split at h
  · next g files log hrun => exact ⟨g, files, log, hrun, h⟩
  · cases h

end Compile

end TypeLang
