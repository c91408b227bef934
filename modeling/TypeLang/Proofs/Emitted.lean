import TypeLang.Proofs.Completeness
import TypeLang.Proofs.References

/-! # The unit of a declaration

A declaration that was admitted once has one unit in the end, whatever else comes. Its entry is final
from the moment of its admission, so the unit that the last registry lays out has the fields and the
description of the declaration (`exists_typeUnit`, `exists_functionUnit`); and since neither records
nor functions share a name, there is no second unit with its discriminator (`nodup_discriminators`). -/

namespace TypeLang

open Registry Text

/-- The name under which values of the class of a unit travel. -/
def SourceUnit.discriminator? (u : SourceUnit) : Option String := u.top.innermost.wireName

theorem filter_beq_eq_singleton {α β : Type} [BEq β] [LawfulBEq β] {f : α → β} {l : List α} {x : α}
    (hnd : (l.map f).Nodup) (hx : x ∈ l) : l.filter (f · == f x) = [x] := by
  induction l with
  | nil => cases hx
  | cons y l ih =>
    rw [List.map_cons, List.nodup_cons] at hnd
    rcases List.mem_cons.mp hx with rfl | hx
    · have hnil : l.filter (f · == f x) = [] := by
        rw [List.filter_eq_nil_iff]
        intro z hz heq
        exact hnd.1 (eq_of_beq heq ▸ List.mem_map_of_mem hz)
      rw [List.filter_cons, beq_self_eq_true, if_pos rfl, hnil]
    · have hne : (f y == f x) = false := by
        rw [beq_eq_false_iff_ne]
        intro heq
        exact hnd.1 (heq ▸ List.mem_map_of_mem hx)
      rw [List.filter_cons, hne, if_neg Bool.false_ne_true, ih hnd.2 hx]

namespace Registry
variable {g : Registry} {n : String}

/-! ### Discriminators -/

/-- The units of one kind. -/
def unitsOf (g : Registry) (kind : UnitKind) : List SourceUnit := g.units.filter (·.kind == kind)

theorem filter_kind_map {α : Type} {f : α → SourceUnit} {k : UnitKind} (hf : ∀ a, (f a).kind = k)
    (l : List α) (kind : UnitKind) :
    (l.map f).filter (·.kind == kind) = if k = kind then l.map f else [] := by
  split
  next h =>
    rw [List.filter_eq_self]
    intro u hu
    obtain ⟨a, -, rfl⟩ := List.mem_map.mp hu
    rw [hf, h, beq_self_eq_true]
  next h =>
    rw [List.filter_eq_nil_iff]
    intro u hu
    obtain ⟨a, -, rfl⟩ := List.mem_map.mp hu
    rw [hf, beq_iff_eq]
    exact h

theorem unitsOf_object (g : Registry) :
    g.unitsOf .object = ((List.range g.size).filter g.hasUnit).map g.typeUnit := by
  rw [unitsOf, units, List.filter_append, filter_kind_map (k := .object) (fun _ => rfl),
    filter_kind_map (k := .function) (fun _ => rfl), if_pos rfl, if_neg (by decide), List.append_nil]

theorem unitsOf_function (g : Registry) :
    g.unitsOf .function = g.functions.toList.map g.functionUnit := by
  rw [unitsOf, units, List.filter_append, filter_kind_map (k := .object) (fun _ => rfl),
    filter_kind_map (k := .function) (fun _ => rfl), if_neg (by decide), if_pos rfl, List.nil_append]

theorem discriminator?_typeUnit (g : Registry) (id : TypeId) :
    (g.typeUnit id).discriminator? = some (g.get id).name := by
  rw [SourceUnit.discriminator?, innermost_typeUnit]
  rfl

theorem nodup_discriminators (hg : g.Reachable) (kind : UnitKind) :
    ((g.unitsOf kind).map (·.discriminator?)).Nodup := by
  cases kind with
  | object =>
    rw [unitsOf_object, List.map_map]
    refine List.Nodup.map_on (fun i hi j hj h => ?_) (List.nodup_range.filter _)
    simp only [Function.comp_apply, discriminator?_typeUnit, Option.some.injEq] at h
    exact hg.wellSpelled.name_inj (List.mem_range.mp (List.mem_filter.mp hi).1)
      (List.mem_range.mp (List.mem_filter.mp hj).1) h
  | function =>
    have hnames : g.functions.toList.map ((·.discriminator?) ∘ g.functionUnit) =
        (g.functions.toList.map (·.name)).map some := by
      rw [List.map_map]
      rfl
    rw [unitsOf_function, List.map_map, hnames]
    exact hg.distinctFunctions.map (Option.some_injective _)

/-! ### The units of entries -/

theorem exists_typeUnit (hg : g.Closed) (hholds : g.catalogue.Holds (.name n))
    (hscalar : (g.entry (.name n)).scalar = none) (hunion : (g.entry (.name n)).isUnion = false) :
    ∃ u ∈ g.unitsOf .object, u.discriminator? = some n ∧
      u.top.innermost.members.map (·.wireName) = (g.entry (.name n)).fields.map (·.name) ∧
      u.top.innermost.description = (g.entry (.name n)).description := by
  obtain ⟨id, hid⟩ := Option.isSome_iff_exists.mp hholds
  have hlt := hg.toSound.lt_size_of_findExpr? hid
  have hentry := entry_of_findExpr? hid
  have hname : (g.get id).name = n := by
    rw [hg.toSound.name_get, hg.toSound.exprAt_of_findExpr? hid]
    rfl
  have harg := isNone_argument hg.toSound hid
  rw [hentry, entryOf] at hscalar hunion
  have hunit : g.hasUnit id = true := by
    simp only at hscalar hunion
    rw [hasUnit, hscalar, hunion, harg]
    rfl
  refine ⟨g.typeUnit id, ?_, ?_, ?_, ?_⟩
  · rw [unitsOf_object]
    exact List.mem_map_of_mem (List.mem_filter.mpr ⟨List.mem_range.mpr hlt, hunit⟩)
  · rw [discriminator?_typeUnit, hname]
  · rw [hentry, innermost_typeUnit]
    simp [typeClass, members, entryOf, fieldShape]
  · rw [hentry, innermost_typeUnit]
    rfl

theorem exists_functionUnit {f : FunctionEntry} (hf : f ∈ g.catalogue.functions) :
    ∃ u ∈ g.unitsOf .function, u.discriminator? = some f.name ∧
      u.top.innermost.members.map (·.wireName) = f.arguments.map (·.name) ∧
      u.top.innermost.description = f.description := by
  obtain ⟨r, hr, rfl⟩ := List.mem_map.mp (Multiset.mem_coe.mp hf)
  refine ⟨g.functionUnit r, ?_, rfl, ?_, rfl⟩
  · rw [unitsOf_function]
    exact List.mem_map_of_mem hr
  · simp [functionUnit, ClassDef.innermost, members, functionEntry, fieldShape]

end Registry

/-! ### Names of declarations -/

/-- The characters of plain names lie between the digits and the small letters. -/
theorem code_of_word {c : Char} (h : (c.isAlphanum || c == '_') = true) :
    48 ≤ c.toNat ∧ c.toNat ≤ 122 := by
  delta Char.isAlphanum Char.isAlpha Char.isUpper Char.isLower Char.isDigit at h
  simp only [Bool.or_eq_true, Bool.and_eq_true, decide_eq_true_eq, beq_iff_eq, ge_iff_le,
    UInt32.le_iff_toNat_le] at h
  change (((65 ≤ c.toNat ∧ c.toNat ≤ 90) ∨ (97 ≤ c.toNat ∧ c.toNat ≤ 122)) ∨
    (48 ≤ c.toNat ∧ c.toNat ≤ 57)) ∨ c = '_' at h
  rcases h with h | rfl
  · omega
  · decide

theorem isBlank_of_word {c : Char} (h : (c.isAlphanum || c == '_') = true) : isBlank c = false := by
  have hcode := code_of_word h
  rw [Bool.eq_false_iff, isBlank]
  intro hb
  obtain ⟨r, hr, hlo, hhi⟩ := Ranges.has_iff.mp hb
  have hout : ∀ r ∈ blankRanges, r.2 < 48 ∨ 122 < r.1 := by decide
  have := hout r hr
  omega

/-- A plain name is read as it stands, up to the spelling of scalars and of `bytes`. -/
theorem parse?_of_isIdentifier (h : Signature.isIdentifier n = true) :
    TypeExpr.parse? n = some (TypeExpr.ofBare n) := by
  have hword : ∀ c ∈ n.toList, (c.isAlphanum || c == '_') = true := List.all_eq_true.mp h
  have hblank : Blankless n.toList := fun c hc => isBlank_of_word (hword c hc)
  have hlt : '<' ∉ n.toList := fun hc => absurd (hword _ hc) (by decide)
  have hgt : '>' ∉ n.toList := fun hc => absurd (hword _ hc) (by decide)
  rw [TypeExpr.parse?_eq_some_iff, TypeExpr.parse, TypeExpr.parseChars, trim_of_blankless hblank]
  split
  next b hb => rw [cutBrackets_eq_none hlt] at hb; cases hb
  next =>
    rw [if_neg (hasBracket_iff.not.mpr (not_or.mpr ⟨hlt, hgt⟩)), String.ofList_toList]

theorem described_of_shapes {docs : DocTags} {fs : List FieldSpec} {es : List FieldShape}
    (h : fs.mapM (FieldSpec.shape? docs) = some es) :
    es.map (fun e => (e.name, e.description)) = fs.map fun f => (f.name, docs.field? f.name) := by
  induction fs generalizing es with
  | nil =>
    cases h
    rfl
  | cons f fs ih =>
    simp only [List.mapM_cons, Option.bind_eq_bind, Option.bind_eq_some_iff, Option.pure_def,
      Option.some.injEq] at h
    obtain ⟨e, he, es, hes, rfl⟩ := h
    obtain ⟨type, -, rfl⟩ := Option.map_eq_some_iff.mp he
    rw [List.map_cons, List.map_cons, ih hes]

theorem names_of_shapes {docs : DocTags} {fs : List FieldSpec} {es : List FieldShape}
    (h : fs.mapM (FieldSpec.shape? docs) = some es) : es.map (·.name) = fs.map (·.name) := by
  have hfst := congrArg (List.map Prod.fst) (described_of_shapes h)
  rwa [List.map_map, List.map_map] at hfst

/-! ### Admitted declarations -/

namespace Admission
variable {kind : Kind} {decl : Declaration} {g g' : Registry}

/-- The registry admits the declaration and leaves another registry behind. -/
def Accepts (kind : Kind) (decl : Declaration) (g g' : Registry) : Prop :=
  match kind with
  | .types => ∃ id, (addType decl).run g = .ok (some id) g'
  | .functions => (addFunction decl).run g = .ok () g'

theorem run_addItem_of_accepts (h : Accepts kind decl g g') :
    (addItem kind (.declaration decl)).run g = .ok .declared g' := by
  cases kind with
  | types =>
    obtain ⟨id, hid⟩ := h
    exact run_bind_ok hid
  | functions => exact run_bind_ok h

theorem accepts_types (hg : g.Closed) (h : Accepts .types decl g g') :
    ∃ s, decl.shape? = some s ∧ (Clause.type s decl.docs.description?).Fits g.catalogue ∧
      g'.Closed ∧ g'.catalogue = (Clause.type s decl.docs.description?).apply g.catalogue := by
  obtain ⟨id, hid⟩ := h
  rcases addType_cases hg.toSound decl with ⟨-, hr⟩ | ⟨c, -, -, hr⟩ | ⟨s, -, hs, hc, hr⟩
  · rw [hr] at hid; cases hid
  · rw [hr] at hid; cases hid
  · rw [hr] at hid
    cases hid
    exact ⟨s, hs, (fits_type_iff hg.toSound hs).mpr hc, hg.putType s _, putType_catalogue hg s _⟩

theorem accepts_functions (hg : g.Closed) (h : Accepts .functions decl g g') :
    ∃ s, decl.shape? = some s ∧ g'.Closed ∧
      g'.catalogue = (Clause.function decl.name s decl.docs.description?).apply g.catalogue := by
  rcases addFunction_cases hg.filed decl with ⟨c, -, hr⟩ | ⟨s, hs, hc, hr⟩
  · rw [Accepts, hr] at h; cases h
  · rw [Accepts, hr] at h
    cases h
    exact ⟨s, hs, hg.putFunction (checkFunction_eq_ok_iff.mp hc) s _, putFunction_catalogue hg _ s _⟩

/-- A plain name that can be declared is no spelling of a scalar, so it is its own expression. -/
theorem shape_name {s : Shape} (hg : g.catalogue.Settled) (hs : decl.shape? = some s)
    (hfits : (Clause.type s decl.docs.description?).Fits g.catalogue)
    (hid : Signature.isIdentifier decl.name = true) (hbytes : decl.name ≠ bytesToken) :
    s.name = .name decl.name := by
  have hname := (Declaration.shape?_eq_some_iff.mp hs).1
  rw [parse?_of_isIdentifier hid, TypeExpr.ofBare, if_neg hbytes, normalizeBare, if_neg hbytes] at hname
  cases hsc : Scalar.ofToken? decl.name with
  | none =>
    rw [hsc] at hname
    exact (Option.some.inj hname).symm
  | some c =>
    rw [hsc] at hname
    have hdeclared := hg.scalar c
    rw [show TypeExpr.name c.codeName = s.name from Option.some.inj hname, hfits.1.1] at hdeclared
    cases hdeclared

/-- What an admitted type declaration leaves is there in every later registry. -/
theorem unit_of_accepted_type {g₂ : Registry} (hg : g.Closed) (hs : g.catalogue.Settled)
    (h : Accepts .types decl g g') (hlater : Leads g' g₂)
    (hid : Signature.isIdentifier decl.name = true) (hbytes : decl.name ≠ bytesToken) :
    ∃ u ∈ g₂.unitsOf .object, u.discriminator? = some decl.name ∧
      u.top.innermost.members.map (·.wireName) = decl.fields.map (·.name) ∧
      u.top.innermost.description = decl.docs.description? := by
  obtain ⟨s, hshape, hfits, hg', hcat⟩ := accepts_types hg h
  have hname := shape_name hs hshape hfits hid hbytes
  obtain ⟨hg₂, hevolves⟩ := hlater.evolves hg'
  have hconcrete := Clause.isConcrete_type_self hs.scalarsDeclared hfits
  have hentry := hevolves.entry_of_concrete (x := s.name) (by rw [hcat]; exact hconcrete)
  have hholds := hevolves.holds (x := s.name) (by rw [hcat]; exact .inr (.inl s.name.self_mem_parts))
  have hscalar :
      (((Clause.type s decl.docs.description?).apply g.catalogue).entry s.name).scalar = none := by
    rw [Entry.isConcrete, Bool.and_eq_true, Option.isNone_iff_eq_none] at hconcrete
    exact hconcrete.2
  rw [hcat] at hentry
  rw [hname] at hholds
  have hfinal : g₂.entry (.name decl.name) =
      ((Clause.type s decl.docs.description?).apply g.catalogue).entry s.name := by
    rw [← hname]
    exact hentry
  obtain ⟨u, hu, hdisc, hwire, hdesc⟩ := exists_typeUnit hg₂ hholds (by rw [hfinal]; exact hscalar)
    (by rw [hfinal]; simp only [Clause.apply, Catalogue.modify, Catalogue.hold, if_pos]; exact hfits.1.2)
  refine ⟨u, hu, hdisc, ?_, ?_⟩
  · rw [hwire, hfinal, ← names_of_shapes (Declaration.shape?_eq_some_iff.mp hshape).2.1]
    simp only [Clause.apply, Catalogue.modify, Catalogue.hold, if_pos]
  · rw [hdesc, hfinal]
    simp only [Clause.apply, Catalogue.modify, Catalogue.hold, if_pos]

theorem unit_of_accepted_function {g₂ : Registry} (hg : g.Closed)
    (h : Accepts .functions decl g g') (hlater : Leads g' g₂) :
    ∃ u ∈ g₂.unitsOf .function, u.discriminator? = some decl.name ∧
      u.top.innermost.members.map (·.wireName) = decl.fields.map (·.name) ∧
      u.top.innermost.description = decl.docs.description? := by
  obtain ⟨s, hshape, hg', hcat⟩ := accepts_functions hg h
  obtain ⟨hg₂, hevolves⟩ := hlater.evolves hg'
  have hmem : (⟨decl.name, decl.docs.description?, s.fields, s.result⟩ : FunctionEntry) ∈
      g'.catalogue.functions := by
    rw [hcat]
    show _ ∈ (_ : FunctionEntry) ::ₘ g.catalogue.functions
    exact Multiset.mem_cons_self _ _
  obtain ⟨u, hu, hdisc, hwire, hdesc⟩ := exists_functionUnit (hevolves.functions hmem)
  refine ⟨u, hu, hdisc, ?_, hdesc⟩
  rw [hwire, names_of_shapes (Declaration.shape?_eq_some_iff.mp hshape).2.1]

/-- The kind of the units that declarations of a kind give. -/
def Kind.unit : Kind → UnitKind
  | .types => .object
  | .functions => .function

end Admission

/-! ### Calls -/

open Admission

/-- The call takes the declaration in: its turn comes, and the registry of that moment admits it. -/
def Call.Admits (call : Call) (c : Compilation) (decl : Declaration) : Prop :=
  ∃ before after t c₁ g,
    Schema.items call.options.strict call.file call.text = .ok (before ++ .declaration decl :: after) ∧
    (Compile.addItems call.options.strict call.file call.kind before).run
      (Compile.told c (Schema.notices call.options.strict call.file call.text)) = .ok t c₁ ∧
    Accepts call.kind decl c₁.registry g

/-- One of the calls takes the declaration in. -/
def Admitted (calls : List Call) (kind : Kind) (decl : Declaration) : Prop :=
  ∃ before call after, calls = before ++ call :: after ∧ call.kind = kind ∧
    call.Admits (Compilation.ofCalls before) decl

/-- Items lead up to the admission of a declaration, and items follow it. -/
theorem Call.Admits.leads {call : Call} {c : Compilation} {decl : Declaration}
    (h : call.Admits c decl) : Signature.isIdentifier decl.name = true ∧
      ∃ g g', Leads c.registry g ∧ Accepts call.kind decl g g' ∧ Leads g' (call.after c).registry := by
  obtain ⟨before, after, t, c₁, g, hitems, hbefore, haccepts⟩ := h
  rw [Compile.addItems] at hbefore
  have hmem : Item.declaration decl ∈ before ++ .declaration decl :: after := by simp
  refine ⟨Schema.isIdentifier_of_mem_contents (Schema.eq_contents hitems ▸ hmem), c₁.registry, g, ?_, haccepts, ?_⟩
  · have hlead := Compile.Leading.addItems call.options.strict call.file call.kind {} before
      (Compile.told c (Schema.notices call.options.strict call.file call.text))
    rw [Compile.after_of_ok hbefore] at hlead
    exact hlead
  · have hstep := Compile.run_addItem_ok (run_addItem_of_accepts haccepts) call.options.strict
      call.file t
    have hrest := Compile.Leading.reported call.options.strict call.file call.kind (t.count .declared)
      after (before ++ Item.declaration decl :: after).length (c₁.proceed g .declared)
    have hrun : (Compile.add call.options call.kind call.file call.text).run c =
        (do let t ← after.foldlM (Compile.addItem call.options.strict call.file call.kind)
              (t.count .declared)
            Compile.tell (.added call.file (before ++ Item.declaration decl :: after).length
              t.declared t.skipped)
            pure t : Compile Tally).run (c₁.proceed g .declared) := by
      rw [Compile.run_add_of_items hitems, Compile.addItems, List.foldlM_append, bind_assoc,
        run_bind_ok hbefore, List.foldlM_cons, bind_assoc, run_bind_ok hstep]
    rw [Call.after, Compile.after, hrun]
    exact hrest

theorem Compilation.ofCalls_append (before after : List Call) (call : Call) :
    ofCalls (before ++ call :: after) =
      after.foldl (fun c call => call.after c) (call.after (ofCalls before)) := by
  rw [ofCalls, List.foldl_append, List.foldl_cons]
  rfl

theorem Admitted.unit {calls : List Call} {kind : Kind} {decl : Declaration}
    (h : Admitted calls kind decl) (hbytes : kind = .types → decl.name ≠ bytesToken) :
    ∃ u ∈ (Compilation.ofCalls calls).registry.unitsOf kind.unit, u.discriminator? = some decl.name ∧
      u.top.innermost.members.map (·.wireName) = decl.fields.map (·.name) ∧
      u.top.innermost.description = decl.docs.description? := by
  obtain ⟨before, call, after, rfl, rfl, hadmits⟩ := h
  obtain ⟨hid, g, g', hfirst, haccepts, hrest⟩ := hadmits.leads
  have hbuilt : g.Built := (built_ofCalls before).trans hfirst
  rw [Compilation.ofCalls_append]
  have hlater : Leads g' (after.foldl (fun c call => call.after c)
      (call.after (Compilation.ofCalls before))).registry := hrest.trans (leads_foldl_calls after _)
  cases hk : call.kind with
  | types =>
    rw [hk] at haccepts hbytes
    exact unit_of_accepted_type hbuilt.closed hbuilt.settled haccepts hlater hid (hbytes rfl)
  | functions =>
    rw [hk] at haccepts
    exact unit_of_accepted_function hbuilt.closed haccepts hlater

/-- Every declaration that was admitted, `bytes` apart, has one unit of its kind in the end, with its
fields in their order and its description; and no two units of a kind share a discriminator. -/
theorem admitted_emitted_once (calls : List Call) :
    let g := (Compilation.ofCalls calls).registry
    (∀ kind decl, Admitted calls kind decl → (kind = .types → decl.name ≠ bytesToken) →
      ∃ u, (g.unitsOf kind.unit).filter (·.discriminator? == some decl.name) = [u] ∧
        u.top.innermost.members.map (·.wireName) = decl.fields.map (·.name) ∧
        u.top.innermost.description = decl.docs.description?) ∧
    ∀ kind, ((g.unitsOf kind).map (·.discriminator?)).Nodup := by
  intro g
  have hnodup := nodup_discriminators (built_ofCalls calls).reachable
  refine ⟨fun kind decl h hbytes => ?_, hnodup⟩
  obtain ⟨u, hu, hdisc, hwire, hdesc⟩ := h.unit hbytes
  refine ⟨u, ?_, hwire, hdesc⟩
  rw [← hdisc]
  exact filter_beq_eq_singleton (hnodup kind.unit) hu

/-- A lenient call with a declaration that comes twice, the second time without its field. -/
def relinked : Call where
  options := { strict := false }
  kind := .types
  file := "types"
  text := "//@description One link.\nlink next:vector<link> = Chain;\n\nlink = Chain;"

/-- The first of the two declarations. -/
def link : Declaration where
  name := "link"
  fields := [⟨"next", "vector<link>", 6⟩]
  result := "Chain"
  line := 2
  docs := ⟨[("description", "One link.")]⟩

theorem admitted_emitted_once_relinked :
    Admitted [relinked] .types link ∧
    ∃ u, ((Compilation.ofCalls [relinked]).registry.unitsOf .object).filter
        (·.discriminator? == some "link") = [u] ∧
      u.top.innermost.members.map (·.wireName) = ["next"] ∧
      u.top.innermost.description = some "One link." := by
  have hitems : Schema.items false relinked.file relinked.text =
      .ok [.declaration link, .declaration ⟨⟨"link", [], "Chain"⟩, 4, {}⟩] := by decide +kernel
  have haccepts : ∃ g, Accepts .types link initial g := by
    have hok : (match (addType link).run initial with
      | .ok id _ => id.isSome
      | .error _ _ => false) = true := by decide +kernel
    split at hok
    · next id g h =>
      obtain ⟨id, rfl⟩ := Option.isSome_iff_exists.mp hok
      exact ⟨g, id, h⟩
    · cases hok
  obtain ⟨g, hg⟩ := haccepts
  have hadmits : relinked.Admits (Compilation.ofCalls []) link :=
    ⟨[], _, {}, _, g, hitems, rfl, hg⟩
  have hadmitted : Admitted [relinked] .types link := ⟨[], relinked, [], rfl, rfl, hadmits⟩
  exact ⟨hadmitted, (admitted_emitted_once [relinked]).1 .types link hadmitted (fun _ => by decide)⟩

end TypeLang
