import TypeLang.Proofs.LineEnds

/-! # Schemas in several files

Two schemas may as well stand in one file with an empty line between them. The blocks of the joined
text are those of its parts (`akin_split_join`), under other numbers and with a carriage return less
where the first text ended in one. Neither shows in the gist of a block (`gist_read`), and the registry
takes no notice of numbers (`addItem_unnumbered`). `takeIn` is what a run over items does apart from
what it tells, so a run over the gists of two texts is a run over the one and then over the other
(`effect_append`). -/

namespace TypeLang

open Text

/-! ### Blocks -/

/-- The same line but for its number and a carriage return. -/
def NumberedLine.Akin (l l' : NumberedLine) : Prop := SameLine l.text.toList l'.text.toList

namespace Block
variable {b b' : Block} {xs xs' p p' : List NumberedLine}

/-- The same block but for the numbers of its lines and carriage returns. -/
def Akin (b b' : Block) : Prop := List.Forall₂ NumberedLine.Akin b.lines b'.lines

theorem akin_flush (h : List.Forall₂ NumberedLine.Akin p p') :
    List.Forall₂ Akin (flush p) (flush p') := by
  cases h with
  | nil => exact .nil
  | cons h hs => exact .cons (List.rel_reverse (.cons h hs)) .nil

theorem akin_group (hp : List.Forall₂ NumberedLine.Akin p p')
    (h : List.Forall₂ NumberedLine.Akin xs xs') :
    List.Forall₂ Akin (group p xs) (group p' xs') := by
  induction h generalizing p p' with
  | nil => exact akin_flush hp
  | cons h hs ih =>
    rw [group, group, isBlankLine_congr h]
    split
    · exact List.rel_append (akin_flush hp) (ih .nil)
    · exact ih (.cons h hp)

theorem akin_number {ls ls' : List String}
    (h : List.Forall₂ (fun l l' => SameLine l.toList l'.toList) ls ls') (n n' : Nat) :
    List.Forall₂ NumberedLine.Akin (number n ls) (number n' ls') := by
  induction h generalizing n n' with
  | nil => exact .nil
  | cons h hs ih => exact .cons h (ih (n + 1) (n' + 1))

theorem Akin.expand (h : b.Akin b') : b.expand.Akin b'.expand := by
  unfold Akin Block.expand
  rw [List.forall₂_map_left_iff, List.forall₂_map_right_iff]
  exact h.imp fun l l' hl => sameLine_expandLine hl

theorem akin_refl (xs : List NumberedLine) : List.Forall₂ NumberedLine.Akin xs xs :=
  List.forall₂_same.mpr fun l _ => .refl l.text.toList

/-- A line feed at the end of a text leaves its blocks alone. -/
theorem akin_group_feed (a : String) :
    List.Forall₂ Akin (group [] (number 1 (Text.lines a)))
      (group [] (number 1 (Text.lines (a ++ "\n")))) := by
  have ha : (a ++ "\n").toList = a.toList ++ ['\n'] := by simp
  unfold Text.lines
  rw [ha]
  rcases linesFrom_append_singleton [] a.toList with h | h
  · refine akin_group .nil (akin_number ?_ 1 1)
    rw [List.forall₂_map_left_iff, List.forall₂_map_right_iff]
    simpa only [String.toList_ofList] using h
  · -- the line feed is an empty line of its own
    rw [h, List.map_append, number_append]
    simp only [List.map_cons, List.map_nil, number]
    rw [group_append_blank rfl, group, flush, List.append_nil]
    exact akin_group .nil (akin_refl _)

theorem akin_split_join (a b : String) :
    List.Forall₂ Akin (split a ++ split b) (split (a ++ "\n\n" ++ b)) := by
  have hexpand : ∀ {bs bs' : List Block}, List.Forall₂ Akin bs bs' →
      List.Forall₂ Akin (bs.map expand) (bs'.map expand) := by
    intro bs bs' h
    rw [List.forall₂_map_left_iff, List.forall₂_map_right_iff]
    exact h.imp fun b b' hb => hb.expand
  unfold split
  rw [lines_join, number_append, number, group_append_blank rfl, List.map_append]
  refine List.rel_append (hexpand (akin_group_feed a)) (hexpand (akin_group .nil ?_))
  exact akin_number (List.forall₂_same.mpr fun l _ => .refl l.toList) _ _

/-! ### Readings -/

theorem Akin.docs_eq (h : b.Akin b') : b.docs = b'.docs := by
  refine DocTags.ofLines_congr ?_
  rw [List.forall₂_map_left_iff, List.forall₂_map_right_iff]
  exact h

theorem Akin.declarationLine? (h : b.Akin b') :
    Option.Rel NumberedLine.Akin b.declarationLine? b'.declarationLine? := by
  unfold Block.declarationLine?
  obtain ⟨ls⟩ := b
  obtain ⟨ls'⟩ := b'
  replace h : List.Forall₂ NumberedLine.Akin ls ls' := h
  induction h with
  | nil => exact .none
  | cons h hs ih =>
    rw [List.find?_cons, List.find?_cons, isComment_congr h]
    split
    · exact .some h
    · exact ih

end Block

/-- The item without its line number. -/
def Item.unnumbered : Item → Item
  | .declaration decl => .declaration { decl with line := 0 }
  | .union name description _ => .union name description 0

/-- What a block says, wherever it stands. -/
structure Gist where
  isMalformed : Bool
  item? : Option Item

/-- The reading without line numbers and faults. -/
def Reading.gist (r : Reading) : Gist := ⟨r.isMalformed, r.item?.map Item.unnumbered⟩

theorem Block.Akin.gist_read {b b' : Block} (h : b.Akin b') : b.read.gist = b'.read.gist := by
  have hline := h.declarationLine?
  unfold Block.read
  rw [h.docs_eq]
  generalize b.declarationLine? = o at hline ⊢
  generalize b'.declarationLine? = o' at hline ⊢
  cases hline with
  | none =>
    dsimp only
    split <;> rfl
  | @some l l' hl =>
    dsimp only
    rw [declaresScalar_congr hl]
    split
    · rfl
    · have hparse := Signature.parse_congr hl
      cases hsig : Signature.parse l.text with
      | ok d =>
        rw [(hparse d).mp hsig]
        rfl
      | error fault =>
        cases hsig' : Signature.parse l'.text with
        | error fault' => rfl
        | ok d =>
          rw [(hparse d).mpr hsig'] at hsig
          cases hsig

namespace Schema

/-- What the blocks of a text say. -/
def gists (text : String) : List Gist := (readings text).map Reading.gist

/-- A joined text says what its parts say. -/
theorem gists_join (a b : String) : gists (a ++ "\n\n" ++ b) = gists a ++ gists b := by
  have hakin := Block.akin_split_join a b
  unfold gists readings
  rw [← List.map_append, ← List.map_append, List.map_map, List.map_map, eq_comm,
    ← List.forall₂_eq_eq_eq, List.forall₂_map_left_iff, List.forall₂_map_right_iff]
  exact hakin.imp fun b b' hb => hb.gist_read

theorem any_gists (text : String) :
    (gists text).any (·.isMalformed) = (readings text).any (·.isMalformed) := by
  rw [gists, List.any_map]
  rfl

theorem filterMap_gists (text : String) :
    (gists text).filterMap (·.item?) = (contents text).map Item.unnumbered := by
  rw [gists, contents, List.filterMap_map, List.map_filterMap]
  rfl

theorem items_eq_ok {strict : Bool} {text : String} (file : String)
    (h : (strict && (readings text).any (·.isMalformed)) = false) :
    items strict file text = .ok (contents text) := by
  cases strict with
  | false => rfl
  | true =>
    have hnone : (readings text).findSome? (Reading.error? file) = none := by
      rw [List.findSome?_eq_none_iff]
      intro r hr
      rw [Compile.error?_eq_none_iff]
      simpa using List.any_eq_false.mp h r hr
    simp only [items, ↓reduceIte, hnone]
    rfl

end Schema

/-! ### Runs -/

namespace Admission

theorem fields_unnumbered (decl : Declaration) (fs : List FieldSpec) :
    fields { decl with line := 0 } fs = fields decl fs := by
  induction fs with
  | nil => rfl
  | cons f fs ih => rw [fields, fields, ih]

/-- The registry takes no notice of line numbers. -/
theorem addItem_unnumbered (kind : Kind) (i : Item) : addItem kind i.unnumbered = addItem kind i := by
  cases i with
  | declaration decl =>
    cases kind with
    | types => simp only [Item.unnumbered, addItem, addType, fields_unnumbered]; rfl
    | functions => simp only [Item.unnumbered, addItem, addFunction, fields_unnumbered]; rfl
  | union name d line => rfl

end Admission

instance : Add Tally := ⟨fun t u => ⟨t.declared + u.declared, t.skipped + u.skipped⟩⟩

theorem Tally.add_count (t u : Tally) (o : Admission.Outcome) : (t + u).count o = t + u.count o := by
  cases o <;> rfl

namespace Compile
variable {strict : Bool} {kind : Admission.Kind} {file : String} {c : Compilation} {t : Tally}
  {i : Item} {is : List Item} {g : Registry}

/-- What becomes of the registry and the count as an item is added, whatever is told of it. -/
def takeIn (strict : Bool) (kind : Admission.Kind) (s : Registry × Tally) (i : Item) :
    Option (Registry × Tally) :=
  match (Admission.addItem kind i).run s.1 with
  | .ok o g => some (g, s.2.count o)
  | .error _ g => if strict then none else some (g, { s.2 with skipped := s.2.skipped + 1 })

/-- The registry and the count at the end of a run that succeeds. -/
def outcome : EStateM.Result CompileError Compilation Tally → Option (Registry × Tally)
  | .ok t c => some (c.registry, t)
  | .error .. => none

theorem outcome_eq_some_iff {r : EStateM.Result CompileError Compilation Tally} :
    outcome r = some (g, t) ↔ ∃ c, r = .ok t c ∧ c.registry = g := by
  cases r with
  | ok u c => simp [outcome, and_comm]
  | error e c => simp [outcome]

theorem outcome_tell (m : Compile Tally) (notice : Tally → Notice) (c : Compilation) :
    outcome ((do let t ← m; tell (notice t); pure t : Compile Tally).run c) = outcome (m.run c) := by
  cases h : m.run c with
  | ok t c' =>
    rw [run_bind_ok h]
    rfl
  | error e c' =>
    rw [run_bind_error h]

theorem outcome_addItem (strict : Bool) (file : String) (kind : Admission.Kind) (t : Tally) (i : Item)
    (c : Compilation) :
    outcome ((addItem strict file kind t i).run c) = takeIn strict kind (c.registry, t) i := by
  unfold takeIn
  cases h : (Admission.addItem kind i).run c.registry with
  | ok o g => rw [run_addItem_ok h, outcome, c.registry_proceed]
  | error cause g =>
    rw [addItem, run_bind_ok (run_attempt_error h)]
    cases strict <;> rfl

theorem outcome_foldlM (strict : Bool) (file : String) (kind : Admission.Kind) (is : List Item)
    (t : Tally) (c : Compilation) :
    outcome ((is.foldlM (addItem strict file kind) t).run c) =
      is.foldlM (takeIn strict kind) (c.registry, t) := by
  induction is generalizing t c with
  | nil => rfl
  | cons i is ih =>
    have hstep := outcome_addItem strict file kind t i c
    rw [List.foldlM_cons, List.foldlM_cons, ← hstep]
    cases h : (addItem strict file kind t i).run c with
    | ok t' c' =>
      rw [run_bind_ok h, ih]
      rfl
    | error e c' =>
      rw [run_bind_error h]
      rfl

theorem takeIn_unnumbered (s : Registry × Tally) (i : Item) :
    takeIn strict kind s i.unnumbered = takeIn strict kind s i := by
  rw [takeIn, Admission.addItem_unnumbered, takeIn]

theorem takeIn_add (u : Tally) (s : Registry × Tally) (i : Item) :
    takeIn strict kind (s.1, u + s.2) i = (takeIn strict kind s i).map (Prod.map id (u + ·)) := by
  unfold takeIn
  split
  next o g h => simp [h, Tally.add_count]
  next e g h =>
    simp only [h]
    split <;> rfl

theorem foldlM_takeIn_add (u : Tally) (s : Registry × Tally) (is : List Item) :
    is.foldlM (takeIn strict kind) (s.1, u + s.2) =
      (is.foldlM (takeIn strict kind) s).map (Prod.map id (u + ·)) := by
  induction is generalizing s with
  | nil => rfl
  | cons i is ih =>
    rw [List.foldlM_cons, List.foldlM_cons, takeIn_add]
    cases takeIn strict kind s i with
    | none => rfl
    | some s' => exact ih s'

/-- What becomes of the registry as a row of blocks is added, and how many items were declared and
refused. -/
def effect (strict : Bool) (kind : Admission.Kind) (gs : List Gist) (g : Registry) :
    Option (Registry × Tally) :=
  if strict && gs.any (·.isMalformed) then none
  else (gs.filterMap (·.item?)).foldlM (takeIn strict kind) (g, {})

theorem outcome_add (o : Options) (kind : Admission.Kind) (file text : String) (c : Compilation) :
    outcome ((add o kind file text).run c) = effect o.strict kind (Schema.gists text) c.registry := by
  rw [effect, Schema.any_gists, Schema.filterMap_gists]
  split
  next h =>
    obtain ⟨hstrict, hany⟩ := Bool.and_eq_true_iff.mp h
    obtain ⟨r, hr, hm⟩ := List.any_eq_true.mp hany
    obtain ⟨n, fault, herror⟩ := items_of_malformed file hr hm
    rw [← hstrict] at herror
    rw [run_add_of_malformed herror, outcome]
  next h =>
    have hitems := Schema.items_eq_ok file (Bool.eq_false_iff.mpr h)
    rw [run_add_of_items hitems, outcome_tell, addItems, outcome_foldlM]
    simp only [List.foldlM_map, takeIn_unnumbered]
    rfl

/-- Adding two rows of blocks at once is adding the one and then the other. -/
theorem effect_append (strict : Bool) (kind : Admission.Kind) (xs ys : List Gist) (g : Registry) :
    effect strict kind (xs ++ ys) g =
      (effect strict kind xs g).bind fun s =>
        (effect strict kind ys s.1).map (Prod.map id (s.2 + ·)) := by
  unfold effect
  rw [List.any_append, List.filterMap_append, List.foldlM_append, Bool.and_or_distrib_left]
  cases (strict && xs.any (·.isMalformed)) with
  | true => rfl
  | false =>
    cases (strict && ys.any (·.isMalformed)) with
    | true => simp
    | false =>
      simp only [Bool.or_false, Bool.false_eq_true, if_false]
      congr 1
      funext s
      exact foldlM_takeIn_add s.2 (s.1, {}) (ys.filterMap (·.item?))

theorem isSome_takeIn (kind : Admission.Kind) (s : Registry × Tally) (i : Item) :
    (takeIn false kind s i).isSome = true := by
  unfold takeIn
  split <;> rfl

theorem isSome_effect (kind : Admission.Kind) (gs : List Gist) (g : Registry) :
    (effect false kind gs g).isSome = true := by
  have hrun : ∀ (is : List Item) (s : Registry × Tally),
      (is.foldlM (takeIn false kind) s).isSome = true := by
    intro is
    induction is with
    | nil => exact fun s => rfl
    | cons i is ih =>
      intro s
      obtain ⟨s', hs'⟩ := Option.isSome_iff_exists.mp (isSome_takeIn kind s i)
      rw [List.foldlM_cons, hs']
      exact ih s'
  exact hrun _ _

/-- Two schemas in one file, with an empty line between them, are two schemas in two files: the
registry is the same and the counts add up, if one way goes through the other does, and a lenient
compilation always does. -/
theorem add_join (o : Options) (kind : Admission.Kind) (file file₁ file₂ a b : String)
    (c : Compilation) :
    (o.strict = false → ∃ t c', (add o kind file (a ++ "\n\n" ++ b)).run c = .ok t c') ∧
    ∀ g t, (∃ c', (add o kind file (a ++ "\n\n" ++ b)).run c = .ok t c' ∧ c'.registry = g) ↔
      ∃ t₁ c₁ t₂ c₂, (add o kind file₁ a).run c = .ok t₁ c₁ ∧
        (add o kind file₂ b).run c₁ = .ok t₂ c₂ ∧ c₂.registry = g ∧ t = t₁ + t₂ := by
  have hjoin : outcome ((add o kind file (a ++ "\n\n" ++ b)).run c) =
      (effect o.strict kind (Schema.gists a) c.registry).bind fun s =>
        (effect o.strict kind (Schema.gists b) s.1).map (Prod.map id (s.2 + ·)) := by
    rw [outcome_add, Schema.gists_join, effect_append]
  refine ⟨?_, ?_⟩
  · intro ho
    have hsome := isSome_effect kind (Schema.gists (a ++ "\n\n" ++ b)) c.registry
    rw [← ho, ← outcome_add o kind file] at hsome
    obtain ⟨⟨g, t⟩, h⟩ := Option.isSome_iff_exists.mp hsome
    obtain ⟨c', hc', -⟩ := outcome_eq_some_iff.mp h
    exact ⟨t, c', hc'⟩
  · intro g t
    rw [← outcome_eq_some_iff, hjoin, Option.bind_eq_some_iff]
    constructor
    · rintro ⟨⟨g₁, t₁⟩, ha, hmap⟩
      obtain ⟨⟨g₂, t₂⟩, hb, heq⟩ := Option.map_eq_some_iff.mp hmap
      cases heq
      rw [← outcome_add o kind file₁] at ha
      obtain ⟨c₁, hc₁, rfl⟩ := outcome_eq_some_iff.mp ha
      rw [← outcome_add o kind file₂] at hb
      obtain ⟨c₂, hc₂, hg⟩ := outcome_eq_some_iff.mp hb
      exact ⟨t₁, c₁, t₂, c₂, hc₁, hc₂, hg, rfl⟩
    · rintro ⟨t₁, c₁, t₂, c₂, hc₁, hc₂, rfl, rfl⟩
      have h₁ := outcome_eq_some_iff.mpr ⟨c₁, hc₁, rfl⟩
      have h₂ := outcome_eq_some_iff.mpr ⟨c₂, hc₂, rfl⟩
      rw [outcome_add] at h₁ h₂
      exact ⟨(c₁.registry, t₁), h₁, by rw [h₂]; rfl⟩

/-- A carriage return before the seam, and a type that is declared again after it. -/
theorem add_join_again :
    ∃ c', (add ⟨false, {}⟩ .types "all" ("a = A;\r" ++ "\n\n" ++ "a = B;")).run {} = .ok ⟨1, 1⟩ c' ∧
      ∃ t₁ c₁ t₂ c₂, (add ⟨false, {}⟩ .types "one" "a = A;\r").run {} = .ok t₁ c₁ ∧
        (add ⟨false, {}⟩ .types "two" "a = B;").run c₁ = .ok t₂ c₂ ∧ c₂.registry = c'.registry ∧
        ⟨1, 1⟩ = t₁ + t₂ := by
  obtain ⟨hok, hiff⟩ := add_join ⟨false, {}⟩ .types "all" "one" "two" "a = A;\r" "a = B;" {}
  obtain ⟨t, c', h⟩ := hok rfl
  have ht : (outcome ((add ⟨false, {}⟩ .types "all" ("a = A;\r" ++ "\n\n" ++ "a = B;")).run {})).map
      Prod.snd = some ⟨1, 1⟩ := by decide +kernel
  rw [h] at ht
  obtain rfl := Option.some.inj ht
  exact ⟨c', h, (hiff c'.registry _).mp ⟨c', h, rfl⟩⟩

end Compile

end TypeLang
