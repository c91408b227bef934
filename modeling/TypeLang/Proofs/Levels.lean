import TypeLang.Proofs.Representation

/-! # Tokens read level by level

Two of the three readers of a token end at a level that is malformed. The look-up goes on with the normal
spelling of that level, but it has a bracket left in it (`hasBracket_normalize`), and no record without an
argument has such a name. So the three agree on every token (`readers_agree`): what cannot be checked is
not resolved and changes nothing, and what is found is what is resolved without a change. -/

namespace TypeLang.Registry
variable {g g' : Registry} {id : TypeId} {e : TypeExpr} {token t : String}

/-- No record without an argument has a bracket in its name. -/
theorem WellSpelled.find?_of_hasBracket (hg : g.WellSpelled) (h : hasBracket t.toList = true) :
    g.find? ⟨t, none⟩ = none := by
  cases hf : g.find? ⟨t, none⟩ with
  | none => rfl
  | some id =>
    obtain ⟨-, hopen, hclose⟩ := (hg.keyFits hf).plain rfl
    rcases hasBracket_iff.mp h with hmem | hmem
    · exact absurd hmem hopen
    · exact absurd hmem hclose

/-- Looking up a malformed level, inside any number of others, finds nothing. -/
theorem WellSpelled.lookup?_of_parse_error {m : TypeExpr.Malformed} (hg : g.WellSpelled)
    (h : TypeExpr.parse token = .error m) : g.lookup? token = none := by
  fun_induction lookup? g token generalizing m with
  | case1 token t hlevel =>
    exact hg.find?_of_hasBracket (hasBracket_normalize (TokenLevel.hasBracket_of_malformed hlevel))
  | case2 token outer inner hlevel ih =>
    rw [TypeExpr.parse_of_generic hlevel] at h
    cases hinner : TypeExpr.parse inner with
    | error m => rw [ih hinner]; rfl
    | ok a => rw [hinner] at h; cases h
  | case3 token hlevel ih => exact ih (TypeExpr.parse_of_bytes hlevel ▸ h)
  | case4 token t hlevel ht => rw [TypeExpr.parse_of_bare hlevel ht] at h; cases h

/-- What is found is what the token reads as. -/
theorem WellSpelled.lookup?_eq_some_iff (hg : g.WellSpelled) :
    g.lookup? token = some id ↔ ∃ e, TypeExpr.parse token = .ok e ∧ g.findExpr? e = some id := by
  cases hparse : TypeExpr.parse token with
  | error m => simp [hg.lookup?_of_parse_error hparse]
  | ok e => simp [lookup?_of_parse hparse]

/-! ### Agreement -/

theorem run_resolve_eq_error_iff {err : RegistryError} :
    (resolve token).run g = .error err g' ↔ checkToken token = .error err ∧ g' = g := by
  rw [run_resolve, checkToken_eq]
  cases TypeExpr.parse token with
  | ok e => simp
  | error m =>
    simp only [EStateM.Result.error.injEq, Except.error.injEq]
    exact and_congr_right fun _ => eq_comm

/-- Interning a type leaves a registry as it is only if the type is there. -/
theorem intern_eq_self_iff : g.intern e = (id, g) ↔ g.findExpr? e = some id := by
  refine ⟨fun h => ?_, intern_of_findExpr?⟩
  have hfind := findExpr?_intern g e
  rwa [h] at hfind

theorem run_resolve_eq_self_iff : (resolve token).run g = .ok id g ↔
    ∃ e, TypeExpr.parse token = .ok e ∧ g.findExpr? e = some id := by
  rw [run_resolve]
  cases TypeExpr.parse token with
  | ok e =>
    simp only [← intern_eq_self_iff, EStateM.Result.ok.injEq, Except.ok.injEq, exists_eq_left']
    exact (Prod.ext_iff (y := (id, g))).symm
  | error m => simp

theorem WellSpelled.findExpr?_eq_none_iff (hg : g.WellSpelled) (he : e.WellFormed) :
    g.findExpr? e = none ↔ ∃ x ∈ e.parts, ∀ id < g.size, (g.get id).name ≠ x.text := by
  constructor
  · intro h
    refine ⟨e, TypeExpr.self_mem_parts e, fun id hid hname => ?_⟩
    -- a record of this name is the record of the expression
    rw [hg.name_get] at hname
    rw [← (hg.wellFormed id hid).text_inj he hname, hg.findExpr?_exprAt hid] at h
    cases h
  · rintro ⟨x, hx, hnew⟩
    cases h : g.findExpr? e with
    | none => rfl
    | some id =>
      obtain ⟨j, hj⟩ := Option.isSome_iff_exists.mp
        (isSome_findExpr?_of_mem_parts (by rw [h]; rfl) hx)
      have hname := hg.name_get j
      rw [hg.exprAt_of_findExpr? hj] at hname
      exact absurd hname (hnew j (hg.lt_size_of_findExpr? hj))

theorem WellSpelled.lookup?_eq_none_iff (hg : g.WellSpelled) :
    g.lookup? token = none ↔ (∃ err, checkToken token = .error err) ∨
      ∃ e, TypeExpr.parse token = .ok e ∧ ∃ x ∈ e.parts, ∀ id < g.size, (g.get id).name ≠ x.text := by
  rw [checkToken_eq]
  cases hparse : TypeExpr.parse token with
  | error m => simp [hg.lookup?_of_parse_error hparse]
  | ok e =>
    rw [lookup?_of_parse hparse]
    simp only [reduceCtorEq, exists_false, false_or, Except.ok.injEq, exists_eq_left']
    exact hg.findExpr?_eq_none_iff (TypeExpr.wellFormed_of_parse hparse)

/-- The three readers of a token agree in a reachable registry. Resolving is refused exactly if the
check is, with the same error and without a change; a place is found exactly if resolving gives it
without a change; and nothing is found if the token is malformed or one of its levels has no record. A
token that is read is interned and found as what it reads as. -/
theorem readers_agree (hg : g.Reachable) (token : String) :
    (∀ err g', (resolve token).run g = .error err g' ↔ checkToken token = .error err ∧ g' = g) ∧
    (∀ id, g.lookup? token = some id ↔ (resolve token).run g = .ok id g) ∧
    (g.lookup? token = none ↔ (∃ err, checkToken token = .error err) ∨
      ∃ e, TypeExpr.parse token = .ok e ∧
        ∃ x ∈ e.parts, ∀ id < g.size, (g.get id).name ≠ x.text) ∧
    ∀ e, TypeExpr.parse token = .ok e → checkToken token = .ok () ∧
      (resolve token).run g = .ok (g.intern e).1 (g.intern e).2 ∧ g.lookup? token = g.findExpr? e := by
  have hw := hg.wellSpelled
  refine ⟨fun err g' => run_resolve_eq_error_iff, fun id => ?_, hw.lookup?_eq_none_iff,
    fun e hparse => ⟨?_, ?_, lookup?_of_parse hparse⟩⟩
  · rw [hw.lookup?_eq_some_iff, run_resolve_eq_self_iff]
  · rw [checkToken_eq, hparse]
  · rw [run_resolve, hparse]

/-- A token that is found although it has blanks and an alias in it, one that is malformed on its
second level, and one of which only the outermost level has no record. -/
theorem readers_agree_nested :
    nested.Reachable ∧
    (nested.lookup? " vector< bytes\t>" = some 8 ∧
      (resolve " vector< bytes\t>").run nested = .ok 8 nested) ∧
    (checkToken "list< vector<> >" = .error (.malformed "vector<>") ∧
      (resolve "list< vector<> >").run nested = .error (.malformed "vector<>") nested ∧
      nested.lookup? "list< vector<> >" = none) ∧
    nested.lookup? "list<bytes>" = none ∧ ∃ e, TypeExpr.parse "list<bytes>" = .ok e ∧
      ∃ x ∈ e.parts, ∀ id < nested.size, (nested.get id).name ≠ x.text := by
  have hg : nested.Reachable := .perform _ (.perform _ .initial)
  have hfound : nested.lookup? " vector< bytes\t>" = some 8 := by decide +kernel
  have hcheck : checkToken "list< vector<> >" = .error (.malformed "vector<>") := by decide +kernel
  have hnone : nested.lookup? "list<bytes>" = none := by decide +kernel
  have hok : ¬ ∃ err, checkToken "list<bytes>" = .error err := by
    have : checkToken "list<bytes>" = .ok () := by decide +kernel
    rintro ⟨err, h⟩
    rw [this] at h
    cases h
  obtain ⟨-, hfind, -⟩ := readers_agree hg " vector< bytes\t>"
  obtain ⟨herror, -, hmissing, -⟩ := readers_agree hg "list< vector<> >"
  obtain ⟨-, -, hlevel, -⟩ := readers_agree hg "list<bytes>"
  exact ⟨hg, ⟨hfound, (hfind 8).mp hfound⟩,
    ⟨hcheck, (herror _ _).mpr ⟨hcheck, rfl⟩, hmissing.mpr (.inl ⟨_, hcheck⟩)⟩,
    hnone, (hlevel.mp hnone).resolve_left hok⟩

end TypeLang.Registry
