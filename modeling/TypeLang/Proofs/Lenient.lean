import Mathlib.Data.List.TakeWhile
import TypeLang.Proofs.ItemRun

/-! # Lenient compilations

A lenient compilation passes over what a strict one ends at. Since a refused item leaves the registry
as it was, leaving the refused items out of the list beforehand changes nothing: on the items that
are `kept`, the strict run succeeds and leads to the same registry (`foldlM_kept`). A strict run that
fails stops in front of the item that is refused (`foldlM_strict_error`), and one that succeeds is
also the lenient run, to the last notice (`foldlM_lenient_of_strict`, `schemas_lenient_of_strict`). -/

namespace TypeLang

open Registry

namespace Compile
variable {file : String} {kind : Admission.Kind} {i : Item} {is : List Item} {c c' d : Compilation}
  {t t' u : Tally} {e : CompileError}

/-- The items that a lenient compilation does not count as skipped. -/
def kept (file : String) (kind : Admission.Kind) : Compilation → List Item → List Item
  | _, [] => []
  | c, i :: is =>
    match (addItem false file kind {} i).run c with
    | .ok t c' => if t.skipped = 0 then i :: kept file kind c' is else kept file kind c' is
    | .error _ c' => kept file kind c' is

theorem skipped_count (t : Tally) (o : Admission.Outcome) : (t.count o).skipped = t.skipped := by
  cases o <;> rfl

theorem declared_count {o : Admission.Outcome} (h : u.declared = t.declared) :
    (u.count o).declared = (t.count o).declared := by
  cases o <;> simp [Tally.count, h]

theorem kept_cons_ok {o : Admission.Outcome} {g : Registry}
    (h : (Admission.addItem kind i).run c.registry = .ok o g) :
    kept file kind c (i :: is) = i :: kept file kind (c.proceed g o) is := by
  rw [kept, run_addItem_ok h]
  show (if (({} : Tally).count o).skipped = 0 then _ else _) = _
  rw [skipped_count, if_pos rfl]

theorem kept_cons_refused {cause : RegistryError} (hc : c.registry.Sound)
    (h : (Admission.addItem kind i).run c.registry = .error cause c.registry) :
    kept file kind c (i :: is) =
      kept file kind { c with log := c.log.push (.refusedItem file i.line cause) } is := by
  rw [kept, (run_addItem_refused hc h file {}).2]
  rfl

theorem kept_sublist (file : String) (kind : Admission.Kind) (c : Compilation) (is : List Item) :
    (kept file kind c is).Sublist is := by
  induction is generalizing c with
  | nil => exact List.Sublist.slnil
  | cons i is ih =>
    rw [kept]
    split
    · split
      · exact (ih _).cons_cons i
      · exact (ih _).cons i
    · exact (ih _).cons i

/-! ### Runs over items -/

/-- The lenient run over a list and the strict run over the items kept of it, from the same
registry. -/
theorem foldlM_kept (hc : c.registry.Sound) (hd : d.registry = c.registry)
    (hu : u.declared = t.declared) (file : String) (kind : Admission.Kind) (is : List Item) :
    ∃ t' c' u' d', (is.foldlM (addItem false file kind) t).run c = .ok t' c' ∧
      t'.skipped + (kept file kind c is).length = t.skipped + is.length ∧
      ((kept file kind c is).foldlM (addItem true file kind) u).run d = .ok u' d' ∧
      d'.registry = c'.registry ∧ u'.declared = t'.declared := by
  induction is generalizing c d t u with
  | nil => exact ⟨t, c, u, d, rfl, rfl, rfl, hd, hu⟩
  | cons i is ih =>
    rcases addItem_outcome hc kind i with ⟨o, g, ho, hg⟩ | ⟨cause, hr⟩
    · rw [kept_cons_ok ho, run_foldlM_cons_ok (run_addItem_ok ho false file t),
        run_foldlM_cons_ok (run_addItem_ok (hd ▸ ho) true file u)]
      obtain ⟨t', c', u', d', hlen, hcount, hstr, hreg, hdecl⟩ :=
        ih (c := c.proceed g o) (d := d.proceed g o) (by rw [c.registry_proceed]; exact hg)
          (by rw [c.registry_proceed, d.registry_proceed]) (declared_count (o := o) hu)
      refine ⟨t', c', u', d', hlen, ?_, hstr, hreg, hdecl⟩
      rw [skipped_count] at hcount
      simp only [List.length_cons]
      omega
    · -- the refused item changes the log alone, and the strict run does not see it
      rw [kept_cons_refused hc hr, run_foldlM_cons_ok (run_addItem_refused hc hr file t).2]
      obtain ⟨t', c', u', d', hlen, hcount, hstr, hreg, hdecl⟩ :=
        ih (c := { c with log := c.log.push (.refusedItem file i.line cause) }) hc hd
          (t := { t with skipped := t.skipped + 1 }) hu
      refine ⟨t', c', u', d', hlen, ?_, hstr, hreg, hdecl⟩
      simp only [List.length_cons] at hcount ⊢
      omega

/-- A strict run that fails ends with the compilation that the items before the refused one lead
to. -/
theorem foldlM_strict_error (hc : c.registry.Sound)
    (h : (is.foldlM (addItem true file kind) t).run c = .error e c') :
    ∃ before i after, is = before ++ i :: after ∧
      (∃ t', (before.foldlM (addItem true file kind) t).run c = .ok t' c') ∧
      ∃ cause, (Admission.addItem kind i).run c'.registry = .error cause c'.registry ∧
        e = .item file i.line cause := by
  induction is generalizing c t with
  | nil => cases h
  | cons i is ih =>
    rcases addItem_outcome hc kind i with ⟨o, g, ho, hg⟩ | ⟨cause, hr⟩
    · have hstep := run_addItem_ok ho true file t
      rw [run_foldlM_cons_ok hstep] at h
      obtain ⟨before, j, after, rfl, ⟨t', hbefore⟩, hj⟩ :=
        ih (by rw [c.registry_proceed]; exact hg) h
      exact ⟨i :: before, j, after, rfl, ⟨t', by rw [run_foldlM_cons_ok hstep]; exact hbefore⟩, hj⟩
    · rw [List.foldlM_cons, run_bind_error (run_addItem_refused hc hr file t).1] at h
      cases h
      exact ⟨[], i, is, rfl, ⟨t, rfl⟩, cause, hr, rfl⟩

theorem foldlM_lenient_of_strict (hc : c.registry.Sound)
    (h : (is.foldlM (addItem true file kind) t).run c = .ok t' c') :
    (is.foldlM (addItem false file kind) t).run c = .ok t' c' ∧ c'.registry.Sound := by
  induction is generalizing c t with
  | nil => cases h; exact ⟨rfl, hc⟩
  | cons i is ih =>
    obtain ⟨t₁, c₁, hstep, hrest⟩ := run_bind_eq_ok h
    obtain ⟨o, g, ho, hg, rfl, rfl⟩ := addItem_strict_ok hc hstep
    rw [run_foldlM_cons_ok (run_addItem_ok ho false file t)]
    exact ih (by rw [c.registry_proceed]; exact hg) hrest

/-! ### Schemas -/

theorem error?_eq_none_iff {r : Reading} : r.error? file = none ↔ r.isMalformed = false := by
  cases r <;> simp [Reading.error?, Reading.isMalformed]

theorem items_lenient_of_strict {text : String} (h : Schema.items true file text = .ok is) :
    Schema.items false file text = .ok is ∧
      Schema.notices false file text = Schema.notices true file text := by
  cases hf : (Schema.readings text).findSome? (Reading.error? file) with
  | some e => simp only [Schema.items, ↓reduceIte, hf] at h; cases h
  | none =>
    simp only [Schema.items, ↓reduceIte, hf] at h
    refine ⟨h, ?_⟩
    have hwell : ∀ r ∈ Schema.readings text, (!r.isMalformed) = true := fun r hr => by
      rw [error?_eq_none_iff.mp (List.findSome?_eq_none_iff.mp hf r hr)]; rfl
    rw [Schema.notices, Schema.notices, if_pos rfl, List.takeWhile_eq_self_iff.mpr hwell]
    rfl

theorem add_lenient_of_strict {code : CodeOptions} {text : String} (hc : c.registry.Sound)
    (h : (add ⟨true, code⟩ kind file text).run c = .ok t c') :
    (add ⟨false, code⟩ kind file text).run c = .ok t c' ∧ c'.registry.Sound := by
  obtain ⟨is, c₁, hitems, hrun, rfl⟩ := run_add_eq_ok h
  obtain ⟨hitems', hnotices⟩ := items_lenient_of_strict hitems
  obtain ⟨hrun', hsound⟩ := foldlM_lenient_of_strict (c := told c _) hc hrun
  rw [← hnotices] at hrun'
  exact ⟨run_add_of_ok hitems' hrun', hsound⟩

theorem verify_lenient_of_strict {code : CodeOptions} {x : Unit}
    (h : (verify ⟨true, code⟩).run c = .ok x c') : (verify ⟨false, code⟩).run c = .ok x c' := by
  obtain ⟨hnone, rfl⟩ := (run_verify_strict_eq_ok rfl).mp h
  rw [run_verify_lenient rfl, hnone]
  exact congrArg _ (told_nil c')

theorem schemas_lenient_of_strict {code : CodeOptions} {types functions : String × String}
    {files : List OutputFile} (hc : c.registry.Sound)
    (h : (schemas ⟨true, code⟩ types functions).run c = .ok files c') :
    (schemas ⟨false, code⟩ types functions).run c = .ok files c' := by
  obtain ⟨_, c₂, hboth, h⟩ := run_bind_eq_ok h
  obtain ⟨_, c₃, hverify, h⟩ := run_bind_eq_ok h
  obtain ⟨t₁, c₁, t₂, htypes, hfunctions⟩ := run_addBoth_eq_ok_iff.mp hboth
  obtain ⟨htypes', hc₁⟩ := add_lenient_of_strict hc htypes
  obtain ⟨hfunctions', -⟩ := add_lenient_of_strict hc₁ hfunctions
  have hboth' : (addBoth ⟨false, code⟩ types functions).run c = .ok () c₂ :=
    run_addBoth_eq_ok_iff.mpr ⟨t₁, c₁, t₂, htypes', hfunctions'⟩
  rw [schemas, run_bind_ok hboth', generate, run_bind_ok (verify_lenient_of_strict hverify)]
  exact h

theorem items_of_malformed {text : String} {r : Reading} (file : String)
    (hr : r ∈ Schema.readings text) (hm : r.isMalformed = true) :
    ∃ n fault, Schema.items true file text = .error (.line file n fault) := by
  cases hf : (Schema.readings text).findSome? (Reading.error? file) with
  | none =>
    have hnone := error?_eq_none_iff.mp (List.findSome?_eq_none_iff.mp hf r hr)
    rw [hm] at hnone
    cases hnone
  | some e =>
    obtain ⟨r', -, he⟩ := List.exists_of_findSome?_eq_some hf
    cases r' with
    | malformed n fault =>
      cases he
      exact ⟨n, fault, by simp only [Schema.items, ↓reduceIte, hf]⟩
    | _ => cases he

/-- Adding a schema ends at a line only before the registry is touched. -/
theorem registry_of_line_error {o : Options} {text source : String} {n : Nat} {fault : Fault}
    (hc : c.registry.Sound) (h : (add o kind file text).run c = .error (.line source n fault) c') :
    c'.registry = c.registry := by
  cases hitems : Schema.items o.strict file text with
  | error e =>
    rw [run_add_of_malformed hitems] at h
    cases h
    rfl
  | ok is =>
    rw [run_add_of_items hitems] at h
    rcases run_bind_eq_error h with h | ⟨t, c₁, -, h⟩
    · cases hs : o.strict with
      | true =>
        rw [hs] at h
        obtain ⟨_, _, _, -, -, _, -, he⟩ := foldlM_strict_error (c := told c _) hc h
        cases he
      | false =>
        rw [hs] at h
        obtain ⟨t', c₁, -, -, hok, -⟩ := foldlM_kept (c := told c _) (t := {}) hc rfl rfl file kind is
        rw [addItems, hok] at h
        cases h
    · cases h

/-- A lenient run succeeds and is the strict run over the items that it does not skip; a strict run
that fails keeps what the items before the refused one gave, and a malformed block keeps a strict
compilation from touching the registry. So what compiles strictly compiles leniently to the same. -/
theorem lenient_is_strict_on_kept (hc : c.registry.Reachable) :
    (∀ file kind is, ∃ t c', (addItems false file kind is).run c = .ok t c' ∧
      t.skipped + (kept file kind c is).length = is.length ∧ (kept file kind c is).Sublist is ∧
      ∃ u d, (addItems true file kind (kept file kind c is)).run c = .ok u d ∧
        d.registry = c'.registry ∧ u.declared = t.declared) ∧
    (∀ file kind is e c', (addItems true file kind is).run c = .error e c' →
      ∃ before i after, is = before ++ i :: after ∧
        (∃ t, (addItems true file kind before).run c = .ok t c') ∧
        ∃ cause, (Admission.addItem kind i).run c'.registry = .error cause c'.registry ∧
          e = .item file i.line cause) ∧
    (∀ o kind file text,
      (o.strict = true → (∃ r ∈ Schema.readings text, r.isMalformed = true) →
        ∃ n fault c', (add o kind file text).run c = .error (.line file n fault) c') ∧
      ∀ source n fault c', (add o kind file text).run c = .error (.line source n fault) c' →
        c'.registry = c.registry) ∧
    ∀ code types functions g files log,
      compileSchemas ⟨true, code⟩ types functions = (.ok (g, files), log) →
        compileSchemas ⟨false, code⟩ types functions = (.ok (g, files), log) := by
  refine ⟨fun file kind is => ?_, fun file kind is e c' h => foldlM_strict_error hc.sound h,
    fun o kind file text => ⟨fun ho ⟨r, hr, hm⟩ => ?_, fun _ _ _ _ h =>
      registry_of_line_error hc.sound h⟩, fun code types functions g files log h => ?_⟩
  · obtain ⟨t, c', u, d, hlen, hcount, hstr, hreg, hdecl⟩ :=
      foldlM_kept (t := {}) (u := {}) hc.sound (d := c) rfl rfl file kind is
    exact ⟨t, c', hlen, by simpa using hcount, kept_sublist file kind c is, u, d, hstr, hreg, hdecl⟩
  · obtain ⟨n, fault, hitems⟩ := items_of_malformed file hr hm
    exact ⟨n, fault, _, run_add_of_malformed (by rw [ho]; exact hitems)⟩
  · unfold compileSchemas at h ⊢
    cases hrun : (schemas ⟨true, code⟩ ("types", types) ("functions", functions)).run {} with
    | ok files' c' =>
      rw [hrun] at h
      rw [schemas_lenient_of_strict (c := {}) Sound.initial hrun]
      exact h
    | error e c' => rw [hrun] at h; cases h

/-- Three declarations, of which the second declares the first type again. -/
def redeclared : List Item :=
  [.declaration ⟨⟨"a", [], "A"⟩, 1, {}⟩, .declaration ⟨⟨"a", [], "B"⟩, 2, {}⟩,
    .declaration ⟨⟨"b", [], "B"⟩, 3, {}⟩]

theorem lenient_is_strict_on_kept_redeclared :
    Reachable ({} : Compilation).registry ∧
    kept "types" .types {} redeclared = redeclared.eraseIdx 1 ∧
    ∃ t c', (addItems false "types" .types redeclared).run {} = .ok t c' ∧ t.skipped = 1 ∧
      ∃ u d, (addItems true "types" .types (redeclared.eraseIdx 1)).run {} = .ok u d ∧
        d.registry = c'.registry ∧ u.declared = t.declared := by
  have hkept : kept "types" .types {} redeclared = redeclared.eraseIdx 1 := by decide +kernel
  obtain ⟨t, c', hrun, hcount, -, hstrict⟩ :=
    (lenient_is_strict_on_kept (c := {}) .initial).1 "types" .types redeclared
  rw [hkept] at hcount hstrict
  refine ⟨.initial, hkept, t, c', hrun, ?_, hstrict⟩
  simpa [redeclared] using hcount

end Compile

end TypeLang
