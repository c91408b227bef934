import TypeLang.Proofs.Lenient
import TypeLang.Proofs.Unions

/-! # Items that come again

A clause that fits later fits now (`Fits.of_apply`): every ground for refusing an item is there to
stay. A declaration that was taken in is refused the second time, so all that a second pass over the
same items can change are the descriptions of unions. `Replays` follows both passes at once. Where the
first pass stood at `p` and ended with `a`, the second stands at a registry `q` that is `a` but for
descriptions, and a description that `a` does not have is the one that `p` has. At the end of the
list `p` is `a`, and so is `q`. -/

namespace TypeLang

open Registry

namespace Clause
variable {s s' : Catalogue} {k k' : Clause} {x : TypeExpr}

/-- Whether the clause declares a type or a function. -/
def declares : Clause → Bool
  | type .. | function .. => true
  | skip | union .. => false

/-- What fits after a clause has fitted before it. -/
theorem Fits.of_apply (h : k.Fits (k'.apply s)) (hfits : k'.Fits s) : k.Fits s := by
  have hconcrete : ∀ x, ((k'.apply s).entry x).isConcrete = false → (s.entry x).isConcrete = false := by
    intro x hx
    rw [Bool.eq_false_iff] at hx ⊢
    intro hc
    rw [Catalogue.entry_apply_of_concrete hfits hc] at hx
    exact hx hc
  cases k with
  | skip => trivial
  | type a d =>
    obtain ⟨⟨hd, hu⟩, hr⟩ := h
    refine ⟨⟨Bool.eq_false_iff.mpr fun h => ?_, Bool.eq_false_iff.mpr fun h => ?_⟩,
      fun hne => hconcrete _ (hr hne)⟩
    · rw [Catalogue.isDeclared_entry_apply k' h] at hd
      cases hd
    · rw [Catalogue.isUnion_entry_apply k' h] at hu
      cases hu
  | function n a d =>
    intro f hf
    exact h f (Catalogue.Evolves.functions (.single ⟨k', hfits, rfl⟩) hf)
  | union e d => exact hconcrete e h

theorem Fits.of_evolves (hk : k.Fits s') (h : Catalogue.Evolves s s') : k.Fits s := by
  induction h with
  | refl => exact hk
  | tail _ hstep ih =>
    obtain ⟨k', hfits, rfl⟩ := hstep
    exact ih (hk.of_apply hfits)

/-- A declaration does not fit a second time. -/
theorem not_fits_apply_self (hk : k.declares = true) (s : Catalogue) : ¬ k.Fits (k.apply s) := by
  intro h
  cases k with
  | skip => cases hk
  | type a d =>
    have hd := h.1.1
    simp only [apply, Catalogue.modify, Catalogue.hold, if_pos] at hd
    cases hd
  | function n a d => exact h _ (Multiset.mem_cons_self _ _) rfl
  | union e d => cases hk

/-- A declaration leaves the descriptions of unions alone. -/
theorem description_apply (hk : k.declares = true) (hfits : k.Fits s)
    (hu : (s.entry x).isUnion = true) :
    ((k.apply s).entry x).description = (s.entry x).description := by
  cases k with
  | skip => cases hk
  | type a d =>
    have hn : x ≠ a.name := by
      rintro rfl
      rw [hfits.1.2] at hu
      cases hu
    simp only [apply, Catalogue.modify, Catalogue.hold, if_neg hn]
    split <;> rfl
  | function n a d =>
    simp only [apply, Catalogue.modify, Catalogue.hold, Catalogue.push]
    split <;> rfl
  | union e d => cases hk

end Clause

namespace Registry
open Admission
variable {g g' p p' q a : Registry} {id : TypeId} {e x : TypeExpr} {k : Clause} {d : Option String}
  {kind : Kind} {i : Item}

/-! ### Refusal is for good -/

theorem refused_of_leads {cause : RegistryError} {g₁ : Registry} (hg : g.Closed) (hl : Leads g g')
    (h : (addItem kind i).run g = .error cause g₁) :
    ∃ cause', (addItem kind i).run g' = .error cause' g' := by
  obtain ⟨hg', hevolves⟩ := hl.evolves hg
  rcases addItem_cases hg kind i with ⟨_, -, hnot⟩ | ⟨_, _, _, -, -, hr, -⟩
  · rcases addItem_cases hg' kind i with ⟨cause', hr', -⟩ | ⟨k, _, _, hk, hfits, -⟩
    · exact ⟨cause', hr'⟩
    · exact absurd (hfits.of_evolves hevolves) (hnot k hk)
  · rw [hr] at h
    cases h

/-! ### Registries that differ in descriptions -/

/-- `g'` is `g` with other descriptions. -/
structure Redescribes (g g' : Registry) : Prop where
  functions : g'.functions = g.functions
  functionIndex : g'.functionIndex = g.functionIndex
  index : g'.index = g.index
  size : g'.size = g.size
  record : ∀ id, ∃ d, g'.get id = { g.get id with description := d }

namespace Redescribes

theorem refl (g : Registry) : g.Redescribes g := ⟨rfl, rfl, rfl, rfl, fun id => ⟨(g.get id).description, rfl⟩⟩

theorem describe (h : g.Redescribes g') (id : TypeId) (d : Option String) :
    g.Redescribes (g'.describe id d) := by
  refine ⟨h.functions, h.functionIndex, h.index, (size_update _ _ _).trans h.size, fun j => ?_⟩
  rw [Registry.describe]
  obtain ⟨d', hd'⟩ := h.record j
  rcases get_update_cases g' id ({ · with description := d }) j with heq | ⟨rfl, heq⟩ <;> rw [heq, hd']
  · exact ⟨d', rfl⟩
  · exact ⟨d, rfl⟩

theorem sameKeys (h : g.Redescribes g') : SameKeys g g' := by
  refine ⟨h.size, h.index, fun id => ?_, fun id => ?_⟩ <;> obtain ⟨d, hd⟩ := h.record id <;> rw [hd]

theorem filed (h : g.Redescribes g') (hg : g.Filed) : g'.Filed := by
  intro n i
  rw [h.functions, h.functionIndex]
  exact hg n i

theorem closed (h : g.Redescribes g') (hg : g.Closed) : g'.Closed := by
  refine ⟨hg.sameKeys h.sameKeys (h.filed hg.filed), fun id f hf => ?_, fun id b hb => ?_, ?_, ?_⟩
  · obtain ⟨d, hd⟩ := h.record id
    rw [hd] at hf
    rw [h.size]
    exact hg.field_lt id f hf
  · obtain ⟨d, hd⟩ := h.record id
    rw [hd] at hb
    rw [h.size]
    exact hg.base_lt id b hb
  · rw [h.functions, h.size]
    exact hg.argument_lt
  · rw [h.functions, h.size]
    exact hg.result_lt

theorem entry (h : g.Redescribes g') (x : TypeExpr) :
    g'.entry x = { g.entry x with description := (g'.entry x).description } := by
  rw [Registry.entry, Registry.entry, h.sameKeys.findExpr?, h.sameKeys.entryOf]
  cases g.findExpr? x with
  | none => rfl
  | some id =>
    obtain ⟨d, hd⟩ := h.record id
    simp only [Option.elim_some, hd]
    rfl

/-- The checks do not look at descriptions. -/
theorem fits_iff (h : g.Redescribes g') : k.Fits g'.catalogue ↔ k.Fits g.catalogue := by
  cases k with
  | skip => exact Iff.rfl
  | type a d =>
    show ((g'.entry a.name).isDeclared = false ∧ (g'.entry a.name).isUnion = false) ∧
      (a.result ≠ a.name → (g'.entry a.result).isConcrete = false) ↔ _
    rw [h.entry a.name, h.entry a.result]
    rfl
  | function n a d =>
    simp [Clause.Fits, catalogue, functionEntry, h.functions]
  | union e d =>
    show (g'.entry e).isConcrete = false ↔ _
    rw [h.entry e]
    rfl

theorem eq (h : g.Redescribes g') (hg : g.Sound)
    (hd : ∀ x, (g'.entry x).description = (g.entry x).description) : g' = g := by
  refine ext_get h.functions h.functionIndex h.index h.size fun id hid => ?_
  have hfind := hg.findExpr?_exprAt hid
  have hfind' : g'.findExpr? (g.exprAt id) = some id := (h.sameKeys.findExpr? _).trans hfind
  have hdescr := hd (g.exprAt id)
  rw [entry_of_findExpr? hfind, entry_of_findExpr? hfind'] at hdescr
  obtain ⟨d, hr⟩ := h.record id
  rw [hr] at hdescr ⊢
  simp only [entryOf] at hdescr
  rw [hdescr]

end Redescribes

/-! ### Items that declare nothing -/

theorem flag_of_isUnion (hu : (g.get id).isUnion = true) : g.flag id = g := by
  refine ext_get rfl rfl rfl (size_update _ _ _) fun j _ => ?_
  rcases get_update_cases g id ({ · with isUnion := true }) j with heq | ⟨rfl, heq⟩ <;>
    rw [flag, heq]
  rw [← hu]

theorem putUnion_of_isUnion (he : g.findExpr? e = some id) (hu : (g.get id).isUnion = true) :
    g.putUnion e d = g.describe id d := by
  rw [putUnion, intern_of_findExpr? he]
  show (g.flag id).describe id d = g.describe id d
  rw [flag_of_isUnion hu]

theorem run_addItem_skip (hk : i.clause? kind = some .skip) :
    ∃ name, ∀ g, (addItem kind i).run g = .ok (.passedOver name) g := by
  cases i with
  | declaration decl =>
    cases kind with
    | types =>
      have hu : isScalarUnion decl.result = true := by
        by_contra hu
        simp [Item.clause?, hu] at hk
      refine ⟨decl.name, fun g => ?_⟩
      rw [addItem, addType, if_pos hu]
      rfl
    | functions => simp [Item.clause?] at hk
  | union name d line => simp [Item.clause?] at hk

theorem run_addItem_union (hg : g.Sound) (hk : i.clause? kind = some (.union e d))
    (hfits : (Clause.union e d).Fits g.catalogue) :
    (addItem kind i).run g = .ok .documented (g.putUnion e d) := by
  cases i with
  | declaration decl =>
    cases kind with
    | types =>
      simp only [Item.clause?] at hk
      split at hk <;> simp at hk
    | functions => simp [Item.clause?] at hk
  | union name d' line =>
    simp only [Item.clause?, Option.map_eq_some_iff, Clause.union.injEq] at hk
    obtain ⟨e', he, rfl, rfl⟩ := hk
    exact run_bind_ok (run_documentUnion_of_check hg he ((fits_union_iff he).mp hfits))

theorem outcome_of_declares {o : Admission.Outcome} (hg : g.Sound) (hk : i.clause? kind = some k)
    (hd : k.declares = true) (h : (addItem kind i).run g = .ok o g') : o = .declared := by
  cases i with
  | declaration decl =>
    cases kind with
    | types =>
      rcases addType_cases hg decl with ⟨hu, -⟩ | ⟨_, -, -, hr⟩ | ⟨_, -, -, -, hr⟩
      · simp only [Item.clause?, hu, if_pos, Option.some.injEq] at hk
        subst hk
        cases hd
      · rw [addItem, run_bind_error hr] at h
        cases h
      · rw [addItem, run_bind_ok hr] at h
        cases h
        rfl
    | functions =>
      rcases addFunction_cases hg.filed decl with ⟨_, -, hr⟩ | ⟨_, -, -, hr⟩
      · rw [addItem, run_bind_error hr] at h
        cases h
      · rw [addItem, run_bind_ok hr] at h
        cases h
        rfl
  | union name d line =>
    obtain ⟨e, -, rfl⟩ := Option.map_eq_some_iff.mp hk
    cases hd

/-! ### Both passes at once -/

/-- The first pass stood at `p` and ended with `a`, and the second stands at `q`. -/
structure Replays (p q a : Registry) : Prop where
  same : a.Redescribes q
  description : ∀ x, (q.entry x).description = (a.entry x).description ∨
    (p.entry x).isUnion = true ∧ (q.entry x).description = (p.entry x).description

theorem Replays.declare (h : Replays p q a) (hk : k.declares = true) (hfits : k.Fits p.catalogue)
    (hcat : p'.catalogue = k.apply p.catalogue) : Replays p' q a := by
  refine ⟨h.same, fun x => (h.description x).imp_right fun ⟨hu, hd⟩ => ?_⟩
  have hentry : p'.entry x = (k.apply p.catalogue).entry x := by rw [← hcat]; rfl
  rw [hentry]
  exact ⟨Catalogue.isUnion_entry_apply k hu, hd.trans (Clause.description_apply hk hfits hu).symm⟩

theorem Replays.document (h : Replays p q a) (ha : a.Sound) (he : q.findExpr? e = some id)
    (hcat : p'.catalogue = (Clause.union e d).apply p.catalogue) : Replays p' (q.describe id d) a := by
  refine ⟨h.same.describe id d, fun x => ?_⟩
  have hentry : p'.entry x = ((Clause.union e d).apply p.catalogue).entry x := by rw [← hcat]; rfl
  rw [hentry, entry_describe (ha.sameKeys h.same.sameKeys (h.same.filed ha.filed)) he]
  simp only [Clause.apply, Catalogue.modify, Catalogue.hold]
  by_cases hx : x = e
  · simp only [if_pos hx, and_self, or_true]
  · simp only [if_neg hx]
    exact h.description x

theorem Replays.eq (h : Replays a q a) (ha : a.Sound) : q = a :=
  h.same.eq ha fun x => (h.description x).elim id fun hx => hx.2

theorem Replays.refuses (h : Replays p q a) (ha : a.Closed)
    (hnot : ∀ k, i.clause? kind = some k → ¬ k.Fits a.catalogue) :
    ∃ cause, (addItem kind i).run q = .error cause q := by
  rcases addItem_cases (h.same.closed ha) kind i with ⟨cause, hr, -⟩ | ⟨k, _, _, hk, hfits, -⟩
  · exact ⟨cause, hr⟩
  · exact absurd (h.same.fits_iff.mp hfits) (hnot k hk)

/-- A union stays a union, and is never declared. -/
theorem Built.fits_union (ha : a.Built) (hu : (a.entry e).isUnion = true) :
    (Clause.union e d).Fits a.catalogue ∧ ∃ id, a.findExpr? e = some id ∧ (a.get id).isUnion = true := by
  refine ⟨Bool.eq_false_iff.mpr fun hc => ?_, ?_⟩
  · have hnot : (a.entry e).isUnion = false := (ha.grouped.concrete e hc).1
    rw [hnot] at hu
    cases hu
  · cases he : a.findExpr? e with
    | none =>
      rw [entry_of_none he] at hu
      cases hu
    | some id =>
      rw [entry_of_findExpr? he] at hu
      exact ⟨id, rfl, hu⟩

/-- What was taken in and declares nothing is taken in again, as it was the first time. -/
theorem Replays.retakes {o : Admission.Outcome} (h : Replays p q a) (hp : p.Closed) (ha : a.Built)
    (hk : i.clause? kind = some k) (hkd : k.declares = false) (hfits : k.Fits p.catalogue)
    (htaken : (addItem kind i).run p = .ok o p') (hcat : p'.catalogue = k.apply p.catalogue)
    (hevolves : Catalogue.Evolves p'.catalogue a.catalogue) :
    (∀ t : Tally, t.count o = t) ∧ ∃ q', (addItem kind i).run q = .ok o q' ∧ Replays p' q' a := by
  cases k with
  | skip =>
    obtain ⟨name, hskip⟩ := run_addItem_skip hk
    rw [hskip p] at htaken
    cases htaken
    exact ⟨fun _ => rfl, q, hskip q, h⟩
  | type b d => cases hkd
  | function n b d => cases hkd
  | union e d =>
    rw [run_addItem_union hp.toSound hk hfits] at htaken
    cases htaken
    have hunion : (a.entry e).isUnion = true := by
      refine hevolves.keeps (P := fun s => (s.entry e).isUnion = true)
        (fun s k _ hs => Catalogue.isUnion_entry_apply k hs) ?_
      rw [hcat]
      simp only [Clause.apply, Catalogue.modify, Catalogue.hold, if_pos]
    obtain ⟨hfits', id, he, hu⟩ := ha.fits_union (d := d) hunion
    have hq := h.same.closed ha.closed
    have he' : q.findExpr? e = some id := (h.same.sameKeys.findExpr? e).trans he
    have hu' : (q.get id).isUnion = true := by
      obtain ⟨d', hd'⟩ := h.same.record id
      rw [hd']
      exact hu
    refine ⟨fun _ => rfl, q.describe id d, ?_, h.document ha.closed.toSound he' hcat⟩
    rw [run_addItem_union hq.toSound hk (h.same.fits_iff.mpr hfits'), putUnion_of_isUnion he' hu']

end Registry

namespace Compile
variable {file : String} {kind : Admission.Kind} {i : Item} {is : List Item} {c c' d : Compilation}
  {t t' u : Tally} {strict : Bool} {r : EStateM.Result CompileError Compilation Tally}

theorem leads_of_foldlM (h : (is.foldlM (addItem strict file kind) t).run c = .ok t' c') :
    Leads c.registry c'.registry := by
  have hleads := Leading.addItems strict file kind t is c
  rwa [after_of_ok h] at hleads

/-- A second pass over items counts those as skipped that the first has declared or skipped, and ends
with the same registry. -/
theorem foldlM_replay (hc : c.registry.Built)
    (h : (is.foldlM (addItem false file kind) t).run c = .ok t' c')
    (hr : Replays c.registry d.registry c'.registry) :
    ∃ u' d', (is.foldlM (addItem false file kind) u).run d = .ok u' d' ∧
      d'.registry = c'.registry ∧ u'.declared = u.declared ∧
      u'.skipped + (t.declared + t.skipped) = u.skipped + (t'.declared + t'.skipped) := by
  induction is generalizing c d t u with
  | nil =>
    cases h
    exact ⟨u, d, rfl, hr.eq hc.closed.toSound, rfl, rfl⟩
  | cons i is ih =>
    have hleads := leads_of_foldlM h
    have hevolves := (Leads.evolves hc.closed hleads).2
    have ha : c'.registry.Built := Relation.ReflTransGen.trans hc hleads
    have hq := (hr.same.closed ha.closed).toSound
    rcases Admission.addItem_cases hc.closed kind i with
      ⟨cause, hrefused, hnot⟩ | ⟨k, o, g, hk, hfits, htaken, -, hcat⟩
    · obtain ⟨cause', hagain⟩ := hr.refuses ha.closed fun k hk hfits => hnot k hk (hfits.of_evolves hevolves)
      rw [run_foldlM_cons_ok (run_addItem_refused hc.closed.toSound hrefused file t).2] at h
      rw [run_foldlM_cons_ok (run_addItem_refused hq hagain file u).2]
      obtain ⟨u', d', hrun, hreg, hdecl, hskip⟩ := ih (c := { c with log := c.log.push _ })
        (d := { d with log := d.log.push _ }) (u := { u with skipped := u.skipped + 1 }) hc h hr
      refine ⟨u', d', hrun, hreg, hdecl, ?_⟩
      simp only at hskip
      omega
    · have hg : g.Built := hc.tail ⟨kind, i, (Admission.after_of_ok htaken).symm⟩
      rw [run_foldlM_cons_ok (run_addItem_ok htaken false file t)] at h
      have hrest := (Leads.evolves (by rw [c.registry_proceed]; exact hg.closed) (leads_of_foldlM h)).2
      rw [c.registry_proceed] at hrest
      replace ih := fun d u => ih (c := c.proceed g o) (d := d) (u := u)
        (by rw [c.registry_proceed]; exact hg) h
      rw [c.registry_proceed] at ih
      cases hkd : k.declares with
      | true =>
        -- what the first pass has declared does not fit at its end
        obtain rfl := outcome_of_declares hc.closed.toSound hk hkd htaken
        have hnot : ∀ k', i.clause? kind = some k' → ¬ k'.Fits c'.registry.catalogue := by
          intro k' hk' hfits'
          rw [hk] at hk'
          cases hk'
          rw [hcat] at hrest
          exact Clause.not_fits_apply_self hkd _ (hfits'.of_evolves hrest)
        obtain ⟨cause, hagain⟩ := hr.refuses ha.closed hnot
        rw [run_foldlM_cons_ok (run_addItem_refused hq hagain file u).2]
        obtain ⟨u', d', hrun, hreg, hdecl, hskip⟩ := ih { d with log := d.log.push _ }
          { u with skipped := u.skipped + 1 } (hr.declare hkd hfits hcat)
        refine ⟨u', d', hrun, hreg, hdecl, ?_⟩
        simp only [Tally.count] at hskip
        omega
      | false =>
        obtain ⟨hcount, q', hagain, hr'⟩ := hr.retakes hc.closed ha hk hkd hfits htaken hcat hrest
        rw [run_foldlM_cons_ok (run_addItem_ok hagain false file u), hcount]
        rw [hcount] at ih
        exact ih (d.proceed q' o) u (by rw [d.registry_proceed]; exact hr')

theorem run_addItems_singleton (h : (addItem strict file kind {} i).run c = r) :
    (addItems strict file kind [i]).run c = r := by
  rw [addItems, List.foldlM_cons]
  show ((addItem strict file kind {} i) >>= pure).run c = r
  rw [bind_pure, h]

/-- An item that is refused once is refused ever after, whatever items come in between; and items that
are added twice in a row add nothing the second time: every declaration among them is refused then,
and the registry is as it was. -/
theorem readding_changes_nothing (hc : c.registry.Built) :
    (∀ file kind i, (∃ e c', (addItems true file kind [i]).run c = .error e c') →
      ∀ d : Compilation, Leads c.registry d.registry →
        (∃ e, (addItems true file kind [i]).run d = .error e d) ∧
        ∃ d', (addItems false file kind [i]).run d = .ok ⟨0, 1⟩ d' ∧ d'.registry = d.registry) ∧
    ∀ file kind is, ∃ t c₁ u c₂, (addItems false file kind is).run c = .ok t c₁ ∧
      (addItems false file kind is).run c₁ = .ok u c₂ ∧ c₂.registry = c₁.registry ∧
      u.declared = 0 ∧ u.skipped = t.declared + t.skipped := by
  refine ⟨fun file kind i ⟨e, c', h⟩ d hl => ?_, fun file kind is => ?_⟩
  · rcases addItem_outcome hc.closed.toSound kind i with ⟨o, g, ho, -⟩ | ⟨cause, hr⟩
    · rw [run_addItems_singleton (run_addItem_ok ho true file {})] at h
      cases h
    · obtain ⟨cause', hr'⟩ := refused_of_leads hc.closed hl hr
      have hd := (hl.evolves hc.closed).1.toSound
      obtain ⟨hstrict, hlenient⟩ := run_addItem_refused hd hr' file {}
      exact ⟨⟨_, run_addItems_singleton hstrict⟩, _, run_addItems_singleton hlenient, rfl⟩
  · obtain ⟨t, c₁, -, -, hrun, -⟩ :=
      foldlM_kept (t := {}) (u := {}) hc.closed.toSound (d := c) rfl rfl file kind is
    obtain ⟨u, c₂, hagain, hreg, hdecl, hskip⟩ :=
      foldlM_replay (u := {}) hc hrun ⟨.refl _, fun _ => .inl rfl⟩
    refine ⟨t, c₁, u, c₂, hrun, hagain, hreg, hdecl, ?_⟩
    simpa using hskip

/-- A union documented twice, a type and another declaration of it. -/
def documentedTwice : List Item :=
  [.union "Shape" (some "A shape.") 1, .declaration ⟨⟨"circle", [⟨"r", "double", 8⟩], "Shape"⟩, 3, {}⟩,
    .union "Shape" (some "Any shape.") 5, .declaration ⟨⟨"circle", [], "Round"⟩, 7, {}⟩]

theorem readding_changes_nothing_shapes :
    ({} : Compilation).registry.Built ∧
    ∃ t c₁ u c₂, (addItems false "types" .types documentedTwice).run {} = .ok t c₁ ∧ t = ⟨1, 1⟩ ∧
      (c₁.registry.get 7).description = some "Any shape." ∧
      (addItems false "types" .types documentedTwice).run c₁ = .ok u c₂ ∧
      c₂.registry = c₁.registry ∧ u = ⟨0, 2⟩ := by
  obtain ⟨t, c₁, u, c₂, hrun, hagain, hreg, hdecl, hskip⟩ :=
    (readding_changes_nothing (c := {}) .initial).2 "types" .types documentedTwice
  have hfirst : ∃ c', (addItems false "types" .types documentedTwice).run {} = .ok ⟨1, 1⟩ c' ∧
      (c'.registry.get 7).description = some "Any shape." := ⟨_, by with_unfolding_all rfl, by decide +kernel⟩
  obtain ⟨c', hfirst, hdescr⟩ := hfirst
  rw [hfirst] at hrun
  cases hrun
  refine ⟨.initial, _, _, _, _, hfirst, rfl, hdescr, hagain, hreg, ?_⟩
  obtain ⟨declared, skipped⟩ := u
  simp only at hdecl hskip
  rw [hdecl, hskip]

end Compile

end TypeLang
