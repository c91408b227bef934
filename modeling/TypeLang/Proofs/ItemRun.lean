import TypeLang.Compilation
import TypeLang.Proofs.Clause

/-! # Runs over items

`Compile.addItem` asks the registry to take an item in. If it does, strict and lenient compilations
go on alike (`run_addItem_ok`); if it refuses, the registry is as before (`addItem_error`), and the
one ends while the other counts the item as skipped. `Admits` is a run in which nothing is refused,
told on catalogues, and `foldlM_strict_ok` and `foldlM_strict_of_admits` say that these are the
strict runs that succeed. -/

namespace TypeLang

open Registry

namespace Admission
variable {g g' : Registry} {kind : Kind} {i : Item} {cause : RegistryError}

theorem addItem_error (hg : g.Sound) (h : (addItem kind i).run g = .error cause g') : g' = g := by
  cases i with
  | declaration decl =>
    cases kind with
    | types =>
      rcases addType_cases hg decl with ⟨-, hr⟩ | ⟨c, -, -, hr⟩ | ⟨s, -, -, -, hr⟩
      · rw [addItem, run_bind_ok hr] at h; cases h
      · rw [addItem, run_bind_error hr] at h; cases h; rfl
      · rw [addItem, run_bind_ok hr] at h; cases h
    | functions =>
      rcases addFunction_cases hg.filed decl with ⟨c, -, hr⟩ | ⟨s, -, -, hr⟩
      · rw [addItem, run_bind_error hr] at h; cases h; rfl
      · rw [addItem, run_bind_ok hr] at h; cases h
  | union name d line =>
    rcases documentUnion_cases hg name d with ⟨c, -, hr⟩ | ⟨e, -, -, hr⟩
    · rw [addItem, run_bind_error hr] at h; cases h; rfl
    · rw [addItem, run_bind_ok hr] at h; cases h

theorem sound_addItem {o : Outcome} (hg : g.Sound) (h : (addItem kind i).run g = .ok o g') :
    g'.Sound := by
  have hkeeps := stable_sound.addItem kind i g hg
  rwa [after_of_ok h] at hkeeps

end Admission

/-- Counts an item that was taken in. -/
def Tally.count (t : Tally) : Admission.Outcome → Tally
  | .declared => { t with declared := t.declared + 1 }
  | .passedOver _ | .documented => t

/-- The compilation after an item that was taken in. -/
def Compilation.proceed (c : Compilation) (g : Registry) : Admission.Outcome → Compilation
  | .passedOver name => ⟨g, c.log.push (.scalarConstructor name)⟩
  | .declared | .documented => ⟨g, c.log⟩

theorem Compilation.registry_proceed (c : Compilation) (g : Registry) (o : Admission.Outcome) :
    (c.proceed g o).registry = g := by
  cases o <;> rfl

namespace Compile
variable {strict : Bool} {file : String} {kind : Admission.Kind} {i : Item} {is : List Item}
  {c c' : Compilation} {t t' : Tally} {g : Registry} {o : Admission.Outcome} {cause : RegistryError}

/-! ### One item -/

theorem run_attempt_ok {α : Type} {a : Admission α} {x : α} (h : a.run c.registry = .ok x g) :
    (attempt a).run c = .ok (.ok x) { c with registry := g } := by
  rw [EStateM.run, attempt, h]

theorem run_attempt_error {α : Type} {a : Admission α} (h : a.run c.registry = .error cause g) :
    (attempt a).run c = .ok (.error cause) { c with registry := g } := by
  rw [EStateM.run, attempt, h]

theorem run_addItem_ok (h : (Admission.addItem kind i).run c.registry = .ok o g) (strict : Bool)
    (file : String) (t : Tally) :
    (addItem strict file kind t i).run c = .ok (t.count o) (c.proceed g o) := by
  rw [addItem, run_bind_ok (run_attempt_ok h)]
  cases o <;> rfl

theorem run_addItem_refused (hc : c.registry.Sound)
    (h : (Admission.addItem kind i).run c.registry = .error cause g) (file : String) (t : Tally) :
    (addItem true file kind t i).run c = .error (.item file i.line cause) c ∧
      (addItem false file kind t i).run c = .ok { t with skipped := t.skipped + 1 }
        { c with log := c.log.push (.refusedItem file i.line cause) } := by
  obtain rfl := Admission.addItem_error hc h
  refine ⟨?_, ?_⟩ <;> rw [addItem, run_bind_ok (run_attempt_error h)] <;> rfl

/-- An item is taken in, by strict and lenient compilations alike, or refused by the registry. -/
theorem addItem_outcome (hc : c.registry.Sound) (kind : Admission.Kind) (i : Item) :
    (∃ o g, (Admission.addItem kind i).run c.registry = .ok o g ∧ g.Sound) ∨
      ∃ cause, (Admission.addItem kind i).run c.registry = .error cause c.registry := by
  cases h : (Admission.addItem kind i).run c.registry with
  | ok o g => exact .inl ⟨o, g, rfl, Admission.sound_addItem hc h⟩
  | error cause g =>
    obtain rfl := Admission.addItem_error hc h
    exact .inr ⟨cause, rfl⟩

theorem addItem_strict_ok (hc : c.registry.Sound) (h : (addItem true file kind t i).run c = .ok t' c') :
    ∃ o g, (Admission.addItem kind i).run c.registry = .ok o g ∧ g.Sound ∧ t' = t.count o ∧
      c' = c.proceed g o := by
  rcases addItem_outcome hc kind i with ⟨o, g, ho, hg⟩ | ⟨cause, hr⟩
  · rw [run_addItem_ok ho] at h
    cases h
    exact ⟨o, g, ho, hg, rfl, rfl⟩
  · rw [(run_addItem_refused hc hr file t).1] at h
    cases h

/-! ### All items -/

theorem run_foldlM_cons_ok {f : Tally → Item → Compile Tally} (h : (f t i).run c = .ok t' c') :
    ((i :: is).foldlM f t).run c = (is.foldlM f t').run c' := by
  rw [List.foldlM_cons, run_bind_ok h]

end Compile

/-- The run that takes all items in leads from one catalogue to the other. -/
def Catalogue.Admits (kind : Admission.Kind) : List Item → Catalogue → Catalogue → Prop
  | [], s, s' => s' = s
  | i :: is, s, s' => ∃ k, i.clause? kind = some k ∧ k.Fits s ∧ Admits kind is (k.apply s) s'

/-- The items that the blocks of a text hold. -/
def Schema.contents (text : String) : List Item := (readings text).filterMap Reading.item?

/-- Strict or not, a schema that is read has the items of its text. -/
theorem Schema.eq_contents {strict : Bool} {file text : String} {is : List Item}
    (h : items strict file text = .ok is) : is = contents text := by
  unfold items at h
  split at h
  · cases h
  · cases h; rfl

namespace Compile
variable {file : String} {kind : Admission.Kind} {is : List Item} {c c' : Compilation} {t t' : Tally}

/-- A strict run that succeeds is one that takes all items in. -/
theorem foldlM_strict_ok (hc : c.registry.Closed)
    (h : (is.foldlM (addItem true file kind) t).run c = .ok t' c') :
    c'.registry.Closed ∧ Catalogue.Admits kind is c.registry.catalogue c'.registry.catalogue := by
  induction is generalizing c t with
  | nil => cases h; exact ⟨hc, rfl⟩
  | cons i is ih =>
    obtain ⟨t₁, c₁, hstep, hrest⟩ := run_bind_eq_ok h
    obtain ⟨o, g, ho, -, rfl, rfl⟩ := addItem_strict_ok hc.toSound hstep
    rcases Admission.addItem_cases hc kind i with ⟨cause, hr, -⟩ | ⟨k, o', g', hk, hfits, hr, hg', hcat⟩
    · rw [ho] at hr; cases hr
    · rw [ho] at hr
      cases hr
      obtain ⟨hc', hrun⟩ := ih (by rw [c.registry_proceed]; exact hg') hrest
      rw [c.registry_proceed, hcat] at hrun
      exact ⟨hc', k, hk, hfits, hrun⟩

theorem foldlM_strict_of_admits (hc : c.registry.Closed) {s : Catalogue}
    (h : Catalogue.Admits kind is c.registry.catalogue s) (file : String) (t : Tally) :
    ∃ t' c', (is.foldlM (addItem true file kind) t).run c = .ok t' c' ∧ c'.registry.Closed ∧
      c'.registry.catalogue = s := by
  induction is generalizing c t with
  | nil => exact ⟨t, c, rfl, hc, h.symm⟩
  | cons i is ih =>
    obtain ⟨k, hk, hfits, hrun⟩ := h
    rcases Admission.addItem_cases hc kind i with ⟨cause, -, hnot⟩ | ⟨k', o, g, hk', -, hr, hg, hcat⟩
    · exact absurd hfits (hnot k hk)
    · rw [hk] at hk'
      cases hk'
      rw [run_foldlM_cons_ok (run_addItem_ok hr true file t)]
      refine ih (by rw [c.registry_proceed]; exact hg) ?_ _
      rw [c.registry_proceed, hcat]
      exact hrun

/-- What every clause of the items keeps, a run over them keeps, strict or lenient: an item that is
refused changes nothing. -/
theorem foldlM_keeps {P : Catalogue → Prop} {strict : Bool}
    (hP : ∀ i ∈ is, ∀ k, i.clause? kind = some k → ∀ s, k.Fits s → P s → P (k.apply s))
    (hc : c.registry.Closed) (hp : P c.registry.catalogue)
    (h : (is.foldlM (addItem strict file kind) t).run c = .ok t' c') :
    c'.registry.Closed ∧ P c'.registry.catalogue := by
  induction is generalizing c t with
  | nil => cases h; exact ⟨hc, hp⟩
  | cons i is ih =>
    have hrest := fun j hj => hP j (List.mem_cons_of_mem i hj)
    obtain ⟨t₁, c₁, hstep, h⟩ := run_bind_eq_ok h
    rcases Admission.addItem_cases hc kind i with ⟨cause, hr, -⟩ | ⟨k, o, g, hk, hfits, hr, hg, hcat⟩
    · obtain ⟨hstrict, hlenient⟩ := run_addItem_refused hc.toSound hr file t
      cases strict with
      | true => rw [hstrict] at hstep; cases hstep
      | false =>
        rw [hlenient] at hstep
        cases hstep
        exact ih (c := { c with log := c.log.push _ }) hrest hc hp h
    · rw [run_addItem_ok hr] at hstep
      cases hstep
      refine ih hrest ?_ ?_ h <;> rw [c.registry_proceed]
      · exact hg
      · rw [hcat]
        exact hP i List.mem_cons_self k hk _ hfits hp

/-! ### Schemas -/

/-- The compilation after several things were told. -/
def told (c : Compilation) (ns : List Notice) : Compilation := { c with log := c.log ++ ns }

theorem told_nil (c : Compilation) : told c [] = c := by
  rw [told, Array.appendList_nil]

section Add
variable {o : Options} {text : String} {e : CompileError}

theorem run_add (o : Options) (kind : Admission.Kind) (file text : String) (c : Compilation) :
    (add o kind file text).run c =
      (do let is ← ofExcept (Schema.items o.strict file text)
          let t ← addItems o.strict file kind is
          tell (.added file is.length t.declared t.skipped)
          pure t : Compile Tally).run (told c (Schema.notices o.strict file text)) :=
  run_bind_ok rfl

theorem run_add_of_malformed (h : Schema.items o.strict file text = .error e) :
    (add o kind file text).run c = .error e (told c (Schema.notices o.strict file text)) := by
  rw [run_add, h]
  rfl

theorem run_add_of_items (h : Schema.items o.strict file text = .ok is) :
    (add o kind file text).run c =
      (do let t ← addItems o.strict file kind is
          tell (.added file is.length t.declared t.skipped)
          pure t : Compile Tally).run (told c (Schema.notices o.strict file text)) := by
  rw [run_add, h]
  rfl

theorem run_add_of_ok (h : Schema.items o.strict file text = .ok is)
    (hrun : (addItems o.strict file kind is).run (told c (Schema.notices o.strict file text)) =
      .ok t c') :
    (add o kind file text).run c =
      .ok t { c' with log := c'.log.push (.added file is.length t.declared t.skipped) } := by
  rw [run_add_of_items h]
  exact run_bind_ok hrun

/-- A schema that was added has items, and all of them were added to the registry at hand. -/
theorem run_add_eq_ok (h : (add o kind file text).run c = .ok t c') :
    ∃ is c₁, Schema.items o.strict file text = .ok is ∧
      (addItems o.strict file kind is).run (told c (Schema.notices o.strict file text)) = .ok t c₁ ∧
      c' = { c₁ with log := c₁.log.push (.added file is.length t.declared t.skipped) } := by
  cases hitems : Schema.items o.strict file text with
  | error e => rw [run_add_of_malformed hitems] at h; cases h
  | ok is =>
    rw [run_add_of_items hitems] at h
    obtain ⟨u, c₁, hrun, h⟩ := run_bind_eq_ok h
    cases h
    exact ⟨is, c₁, rfl, hrun, rfl⟩

theorem add_keeps {P : Catalogue → Prop}
    (hP : ∀ i ∈ Schema.contents text, ∀ k, i.clause? kind = some k →
      ∀ s, k.Fits s → P s → P (k.apply s))
    (hc : c.registry.Closed) (hp : P c.registry.catalogue)
    (h : (add o kind file text).run c = .ok t c') :
    c'.registry.Closed ∧ P c'.registry.catalogue := by
  obtain ⟨is, c₁, hitems, hrun, rfl⟩ := run_add_eq_ok h
  rw [← Schema.eq_contents hitems] at hP
  show c₁.registry.Closed ∧ P c₁.registry.catalogue
  exact foldlM_keeps (c := told c _) hP hc hp hrun

theorem run_addBoth_eq_ok_iff {types functions : String × String} {u : Unit} :
    (addBoth o types functions).run c = .ok u c' ↔
      ∃ t₁ c₁ t₂, (add o .types types.1 types.2).run c = .ok t₁ c₁ ∧
        (add o .functions functions.1 functions.2).run c₁ = .ok t₂ c' := by
  constructor
  · intro h
    obtain ⟨t₁, c₁, htypes, h⟩ := run_bind_eq_ok h
    obtain ⟨t₂, c₂, hfunctions, h⟩ := run_bind_eq_ok h
    cases h
    exact ⟨t₁, c₁, t₂, htypes, hfunctions⟩
  · rintro ⟨t₁, c₁, t₂, htypes, hfunctions⟩
    rw [addBoth, run_bind_ok htypes, run_bind_ok hfunctions]
    rfl

end Add

theorem run_verify_strict {o : Options} (ho : o.strict = true) (c : Compilation) :
    (verify o).run c =
      match c.registry.undeclared.head? with
      | some u => .error (.undeclared u) c
      | none => .ok () c := by
  have hget : (get : Compile Compilation).run c = .ok c c := rfl
  rw [verify, run_bind_ok hget, if_pos ho]
  show EStateM.run (match c.registry.undeclared.head? with | some u => _ | none => _) c = _
  cases c.registry.undeclared.head? <;> rfl

theorem run_verify_lenient {o : Options} (ho : o.strict = false) (c : Compilation) :
    (verify o).run c = .ok () (told c (c.registry.undeclared.map Notice.undeclared)) := by
  have hget : (get : Compile Compilation).run c = .ok c c := rfl
  rw [verify, run_bind_ok hget, if_neg (by rw [ho]; exact Bool.false_ne_true)]
  rfl

theorem run_verify_strict_eq_ok {o : Options} (ho : o.strict = true) :
    (verify o).run c = .ok () c' ↔ c.registry.undeclared = [] ∧ c' = c := by
  rw [run_verify_strict ho]
  cases c.registry.undeclared with
  | nil =>
    refine ⟨fun h => ⟨rfl, ?_⟩, fun h => by rw [h.2]; rfl⟩
    cases h; rfl
  | cons u us => exact ⟨fun h => (by cases h), fun h => (by cases h.1)⟩

end Compile

end TypeLang
