import TypeLang.Proofs.Growth

/-! # Sound registries

`Sound g`: the indexes and the records agree. Every record has one key, which leads to it and spells its
name, every key in the index is that of the record it leads to, arguments are older than the types built
from them, and the functions are found by their names. In a sound registry places and type expressions
stand for each other (`exprAt_of_findExpr?`, `findExpr?_exprAt`). A new record under a new key keeps a
registry sound (`Sound.insert`), and so does every change that leaves keys and names alone
(`SameKeys`). -/

namespace TypeLang.Registry
variable {g g' g'' : Registry} {id j : TypeId} {k : TypeKey} {n : String} {e : TypeExpr}

/-! ### Changes that leave keys and names alone -/

/-- `g'` has the places of `g`, with the same keys, arguments and names. -/
structure SameKeys (g g' : Registry) : Prop where
  size : g'.size = g.size
  index : g'.index = g.index
  argument : ∀ id, (g'.get id).argument = (g.get id).argument
  name : ∀ id, (g'.get id).name = (g.get id).name

namespace SameKeys

theorem refl (g : Registry) : SameKeys g g := ⟨rfl, rfl, fun _ => rfl, fun _ => rfl⟩

theorem trans (h : SameKeys g g') (h' : SameKeys g' g'') : SameKeys g g'' :=
  ⟨h'.size.trans h.size, h'.index.trans h.index, fun id => (h'.argument id).trans (h.argument id),
    fun id => (h'.name id).trans (h.name id)⟩

theorem key (h : SameKeys g g') (id : TypeId) : g'.key id = g.key id := by
  rw [Registry.key, h.index, Registry.key]

theorem find? (h : SameKeys g g') (key : TypeKey) : g'.find? key = g.find? key := by
  rw [Registry.find?, h.index, Registry.find?]

theorem findExpr? (h : SameKeys g g') (e : TypeExpr) : g'.findExpr? e = g.findExpr? e := by
  induction e with
  | name s => exact h.find? _
  | generic outer a ih => simp only [Registry.findExpr?, ih, h.find?]

end SameKeys

theorem size_update (g : Registry) (id : TypeId) (f : TypeRecord → TypeRecord) :
    (g.update id f).size = g.size := Array.size_modify

theorem get_update (f : TypeRecord → TypeRecord) (h : id < g.size) (j : TypeId) :
    (g.update id f).get j = if j = id then f (g.get j) else g.get j := by
  simp only [update, get, get?, Array.getElem?_modify]
  split
  · subst j
    rw [if_pos rfl, Array.getElem?_eq_getElem h]
    rfl
  · rw [if_neg (Ne.symm ‹_›)]

theorem update_of_size_le (f : TypeRecord → TypeRecord) (h : g.size ≤ id) : g.update id f = g := by
  refine ext_get rfl rfl rfl (size_update g id f) fun j hj => ?_
  simp only [update, get, get?, Array.getElem?_modify]
  rw [if_neg (Nat.ne_of_gt (Nat.lt_of_lt_of_le hj h))]

/-- A record is as it was, or it is the one that is changed. A place without a record has none to
change. -/
theorem get_update_cases (g : Registry) (id : TypeId) (f : TypeRecord → TypeRecord) (j : TypeId) :
    (g.update id f).get j = g.get j ∨ j = id ∧ (g.update id f).get j = f (g.get id) := by
  rcases Nat.lt_or_ge id g.size with h | h
  · rw [get_update f h]
    split
    next heq => exact .inr ⟨heq, by rw [heq]⟩
    next => exact .inl rfl
  · rw [update_of_size_le f h]
    exact .inl rfl

/-- What a change keeps of every record stays. -/
theorem map_get_update {β : Type} {φ : TypeRecord → β} {f : TypeRecord → TypeRecord}
    (hf : ∀ r, φ (f r) = φ r) (g : Registry) (id j : TypeId) :
    φ ((g.update id f).get j) = φ (g.get j) := by
  rcases get_update_cases g id f j with h | ⟨rfl, h⟩
  · rw [h]
  · rw [h, hf]

theorem sameKeys_update (g : Registry) (id : TypeId) (f : TypeRecord → TypeRecord)
    (ha : ∀ r, (f r).argument = r.argument) (hn : ∀ r, (f r).name = r.name) :
    SameKeys g (g.update id f) :=
  ⟨size_update g id f, rfl, map_get_update ha g id, map_get_update hn g id⟩

theorem sameKeys_describe (g : Registry) (id : TypeId) (d : Option String) :
    SameKeys g (g.describe id d) :=
  sameKeys_update g id _ (fun _ => rfl) (fun _ => rfl)

theorem sameKeys_setBase (g : Registry) (id base : TypeId) : SameKeys g (g.setBase id base) :=
  sameKeys_update g id _ (fun _ => rfl) (fun _ => rfl)

/-! ### Changes that may be refused -/

/-- Gives a record its fields. -/
def fill (g : Registry) (id : TypeId) (fields : List Field) : Registry :=
  g.update id ({ · with fields, isDeclared := true })

/-- Makes a record a union. -/
def flag (g : Registry) (id : TypeId) : Registry := g.update id ({ · with isUnion := true })

/-- Adds a function. -/
def push (g : Registry) (f : FunctionRecord) : Registry :=
  { g with
    functions := g.functions.push f, functionIndex := (f.name, g.functions.size) :: g.functionIndex }

theorem define_eq_ok_iff {fields : List Field} : g.define id fields = .ok g' ↔
    (g.get id).isDeclared = false ∧ (g.get id).isUnion = false ∧ g' = g.fill id fields := by
  simp only [define]
  split
  next hd => simp [hd]
  next hd =>
    split
    next hu => simp [hu]
    next hu =>
      rw [Bool.not_eq_true] at hd hu
      simp only [Except.ok.injEq, hd, hu, true_and]
      exact eq_comm

theorem markUnion_eq_ok_iff :
    g.markUnion id = .ok g' ↔ (g.get id).isConcrete = false ∧ g' = g.flag id := by
  simp only [markUnion]
  split
  next hc => simp [hc]
  next hc =>
    rw [Bool.not_eq_true] at hc
    simp only [Except.ok.injEq, hc, true_and]
    exact eq_comm

theorem addFunction_eq_ok_iff {f : FunctionRecord} :
    g.addFunction f = .ok g' ↔ g.functionIndex.lookup f.name = none ∧ g' = g.push f := by
  unfold addFunction
  cases hf : g.functionIndex.lookup f.name with
  | some f' => simp
  | none => simp [push, eq_comm]

theorem sameKeys_push (g : Registry) (f : FunctionRecord) : SameKeys g (g.push f) :=
  ⟨rfl, rfl, fun _ => rfl, fun _ => rfl⟩

/-! ### Soundness -/

/-- The name that a key spells. -/
def keyText (g : Registry) (key : TypeKey) : String :=
  key.argument.elim key.name fun arg => key.name ++ "<" ++ (g.get arg).name ++ ">"

/-- A name leads to a place exactly if the function there bears it. -/
def Filed (g : Registry) : Prop :=
  ∀ n i, g.functionIndex.lookup n = some i ↔ (g.functions[i]?).map (·.name) = some n

/-- Keys lead to their records and spell their names, arguments come first, and functions are found by
their names. -/
structure Sound (g : Registry) : Prop where
  indexed : ∀ p ∈ g.index, p.2 < g.size ∧ g.key p.2 = p.1
  find?_key : ∀ id < g.size, g.find? (g.key id) = some id
  argument_eq : ∀ id, (g.get id).argument = (g.key id).argument
  older : ∀ id arg, (g.get id).argument = some arg → arg < id
  name_eq : ∀ id, (g.get id).name = g.keyText (g.key id)
  filed : g.Filed

theorem keyText_congr (h : ∀ arg, k.argument = some arg → (g'.get arg).name = (g.get arg).name) :
    g'.keyText k = g.keyText k := by
  obtain ⟨s, a⟩ := k
  cases a with
  | none => rfl
  | some arg => simp only [keyText, Option.elim_some, h arg rfl]

namespace Filed

/-- A function under a new name. -/
theorem push {f : FunctionRecord} (hg : g.Filed) (h : g.functionIndex.lookup f.name = none) :
    (g.push f).Filed := by
  intro n i
  rw [Registry.push, lookup_cons_eq_if, Array.getElem?_push]
  by_cases hi : i = g.functions.size
  · -- no old name leads to the new place
    have hold : g.functionIndex.lookup n ≠ some g.functions.size := by
      rw [ne_eq, hg n, Array.getElem?_size]
      exact fun h => by cases h
    rw [if_pos hi, hi, Option.map_some, Option.some.injEq]
    split
    · next hn => simp [hn]
    · next hn => simp [hold, Ne.symm hn]
  · rw [if_neg hi, ← hg n i]
    split
    · next hn =>
      rw [hn, h]
      simp [Ne.symm hi]
    · rfl

theorem function?_eq_some_iff {f : FunctionRecord} (hg : g.Filed) :
    g.function? n = some f ↔ f ∈ g.functions ∧ f.name = n := by
  rw [function?, Option.bind_eq_some_iff, Array.mem_iff_getElem?]
  constructor
  · rintro ⟨i, hi, hf⟩
    have hname := (hg n i).mp hi
    rw [hf, Option.map_some, Option.some.injEq] at hname
    exact ⟨⟨i, hf⟩, hname⟩
  · rintro ⟨⟨i, hf⟩, hname⟩
    exact ⟨i, (hg n i).mpr (by rw [hf, Option.map_some, hname]), hf⟩

theorem function?_eq_none_iff (hg : g.Filed) :
    g.function? n = none ↔ g.functionIndex.lookup n = none := by
  rw [function?, Option.bind_eq_none_iff]
  refine ⟨fun h => ?_, fun h i hi => by rw [h] at hi; cases hi⟩
  cases hi : g.functionIndex.lookup n with
  | none => rfl
  | some i =>
    have hname := (hg n i).mp hi
    rw [h i hi] at hname
    cases hname

end Filed

namespace Sound

theorem lt_size_of_find? (hg : g.Sound) (h : g.find? k = some id) : id < g.size :=
  (hg.indexed _ (mem_index_of_find? h)).1

theorem key_of_find? (hg : g.Sound) (h : g.find? k = some id) : g.key id = k :=
  (hg.indexed _ (mem_index_of_find? h)).2

theorem lt_size_of_findExpr? (hg : g.Sound) (h : g.findExpr? e = some id) : id < g.size := by
  cases e with
  | name s => exact hg.lt_size_of_find? h
  | generic outer a =>
    obtain ⟨arg, _, h⟩ := Option.bind_eq_some_iff.mp h
    exact hg.lt_size_of_find? h

theorem sameKeys (hg : g.Sound) (h : SameKeys g g') (hf : g'.Filed) : g'.Sound where
  indexed p hp := by
    rw [h.size, h.key]
    exact hg.indexed p (h.index ▸ hp)
  find?_key id hid := by rw [h.key, h.find?]; exact hg.find?_key id (h.size ▸ hid)
  argument_eq id := by rw [h.argument, h.key]; exact hg.argument_eq id
  older id arg ha := hg.older id arg (h.argument id ▸ ha)
  name_eq id := by rw [h.name, h.key, hg.name_eq, keyText_congr fun arg _ => h.name arg]
  filed := hf

theorem update {f : TypeRecord → TypeRecord} (hg : g.Sound) (ha : ∀ r, (f r).argument = r.argument)
    (hn : ∀ r, (f r).name = r.name) (id : TypeId) : (g.update id f).Sound :=
  hg.sameKeys (sameKeys_update g id f ha hn) hg.filed

theorem describe (hg : g.Sound) (id : TypeId) (d : Option String) : (g.describe id d).Sound :=
  hg.sameKeys (sameKeys_describe g id d) hg.filed

/-- A record under a key that led nowhere, with the name that the key spells. -/
theorem insert {r : TypeRecord} (hg : g.Sound) (h : g.find? k = none)
    (ha : ∀ arg, k.argument = some arg → arg < g.size) (hr : r.argument = k.argument)
    (hn : r.name = g.keyText k) : (g.insert k r).2.Sound where
  indexed p hp := by
    rw [size_insert, key_insert]
    rcases List.mem_cons.mp hp with rfl | hp
    · exact ⟨Nat.lt_succ_self _, if_pos rfl⟩
    · obtain ⟨hlt, hkey⟩ := hg.indexed p hp
      rw [if_neg (Nat.ne_of_lt hlt)]
      exact ⟨Nat.lt_succ_of_lt hlt, hkey⟩
  find?_key id hid := by
    rw [size_insert] at hid
    rw [key_insert]
    split
    · next hs => rw [find?_insert, if_pos rfl, hs]
    · next hs =>
      have hold := hg.find?_key id (Nat.lt_of_le_of_ne (Nat.le_of_lt_succ hid) hs)
      rw [find?_insert, if_neg fun hk => by rw [hk, h] at hold; cases hold]
      exact hold
  argument_eq id := by
    rw [get_insert, key_insert]
    split
    · exact hr
    · exact hg.argument_eq id
  older id arg harg := by
    rw [get_insert] at harg
    split at harg
    · next hs => rw [hs]; exact ha arg (hr ▸ harg)
    · exact hg.older id arg harg
  name_eq id := by
    -- the argument of any key is among the old records, whose names stay
    have hold : ∀ k' : TypeKey, (∀ arg, k'.argument = some arg → arg < g.size) →
        (g.insert k r).2.keyText k' = g.keyText k' := fun k' hk =>
      keyText_congr fun arg harg => by rw [get_insert, if_neg (Nat.ne_of_lt (hk arg harg))]
    rw [get_insert, key_insert]
    split
    · rw [hold k ha]; exact hn
    · rw [hg.name_eq, hold _ fun arg harg => ?_]
      rw [← hg.argument_eq] at harg
      have hlt := hg.older id arg harg
      rcases Nat.lt_or_ge id g.size with hid | hid
      · exact Nat.lt_trans hlt hid
      · rw [get_of_size_le hid] at harg; cases harg
  filed := hg.filed

theorem internKey (hg : g.Sound) (ha : ∀ arg, k.argument = some arg → arg < g.size) :
    (g.internKey k (g.keyText k)).2.Sound := by
  cases h : g.find? k with
  | some id => rw [internKey_of_find? h]; exact hg
  | none => rw [internKey_of_none h]; exact hg.insert h ha rfl rfl

theorem intern (hg : g.Sound) (e : TypeExpr) : (g.intern e).2.Sound := by
  induction e with
  | name s => exact hg.internKey (k := ⟨s, none⟩) fun _ h => by cases h
  | generic outer a ih =>
    refine ih.internKey (k := ⟨outer, some (g.intern a).1⟩) fun arg h => ?_
    cases h
    exact ih.lt_size_of_findExpr? (findExpr?_intern g a)

theorem seed {ss : List Scalar} (hg : g.Sound) (hss : (ss.map Scalar.codeName).Nodup)
    (hnew : ∀ s ∈ ss, g.find? ⟨s.codeName, none⟩ = none) : (ss.foldl Registry.seed g).Sound := by
  induction ss generalizing g with
  | nil => exact hg
  | cons s ss ih =>
    rw [List.map_cons, List.nodup_cons] at hss
    have hs := hnew s List.mem_cons_self
    refine ih (hg.insert hs (fun _ h => by cases h) rfl rfl) hss.2 fun t ht => ?_
    have hne : (⟨t.codeName, none⟩ : TypeKey) ≠ ⟨s.codeName, none⟩ := fun h =>
      hss.1 (List.mem_map.mpr ⟨t, ht, congrArg TypeKey.name h⟩)
    rw [Registry.seed, find?_insert, if_neg hne]
    exact hnew t (List.mem_cons_of_mem _ ht)

theorem initial : Registry.initial.Sound := by
  refine seed ⟨fun _ h => ?_, fun _ h => ?_, fun _ => rfl, fun _ _ h => ?_, fun _ => rfl, fun _ _ => ?_⟩
    (by decide) fun _ _ => rfl
  · cases h
  · cases h
  · cases h
  · simp

end Sound

/-! ### Places and expressions -/

/-- The expression of the type at a place. -/
def exprAt (g : Registry) (id : TypeId) : TypeExpr :=
  match (g.get id).argument with
  | some arg =>
    if arg < id then .generic (g.key id).name (g.exprAt arg) else .name (g.key id).name
  | none => .name (g.key id).name
termination_by id

theorem exprAt_of_none (h : (g.get id).argument = none) : g.exprAt id = .name (g.key id).name := by
  rw [exprAt, h]

namespace Sound

theorem exprAt_of_some {a : TypeId} (hg : g.Sound) (h : (g.get id).argument = some a) :
    g.exprAt id = .generic (g.key id).name (g.exprAt a) := by
  rw [exprAt, h]
  exact if_pos (hg.older id a h)

theorem exprAt_of_findExpr? (hg : g.Sound) (h : g.findExpr? e = some id) : g.exprAt id = e := by
  induction e generalizing id with
  | name s =>
    have hk := hg.key_of_find? h
    rw [exprAt_of_none (by rw [hg.argument_eq, hk]), hk]
  | generic outer a ih =>
    obtain ⟨arg, ha, hf⟩ := Option.bind_eq_some_iff.mp h
    have hk := hg.key_of_find? hf
    rw [hg.exprAt_of_some (a := arg) (by rw [hg.argument_eq, hk]), hk, ih ha]

theorem findExpr?_exprAt (hg : g.Sound) (hid : id < g.size) : g.findExpr? (g.exprAt id) = some id := by
  induction id using Nat.strongRecOn with
  | ind id ih =>
    have hk := hg.find?_key id hid
    rw [show g.key id = ⟨(g.key id).name, (g.get id).argument⟩ by rw [hg.argument_eq]] at hk
    cases ha : (g.get id).argument with
    | none =>
      rw [ha] at hk
      rw [exprAt_of_none ha]
      exact hk
    | some arg =>
      have hlt := hg.older id arg ha
      rw [ha] at hk
      rw [hg.exprAt_of_some ha, findExpr?, ih arg hlt (Nat.lt_trans hlt hid), Option.bind_some]
      exact hk

theorem exprAt_inj (hg : g.Sound) (hi : id < g.size) (hj : j < g.size)
    (h : g.exprAt id = g.exprAt j) : id = j := by
  have h' := hg.findExpr?_exprAt hi
  rw [h, hg.findExpr?_exprAt hj] at h'
  exact (Option.some.inj h').symm

theorem name_get (hg : g.Sound) (id : TypeId) : (g.get id).name = (g.exprAt id).text := by
  induction id using Nat.strongRecOn with
  | ind id ih =>
    have hn := hg.name_eq id
    cases ha : (g.get id).argument with
    | none =>
      rw [exprAt_of_none ha, hn, keyText, show (g.key id).argument = none from hg.argument_eq id ▸ ha]
      rfl
    | some arg =>
      rw [hg.exprAt_of_some ha, hn, keyText, show (g.key id).argument = some arg from hg.argument_eq id ▸ ha,
        Option.elim_some, ih arg (hg.older id arg ha)]
      rfl

end Sound

theorem SameKeys.exprAt (h : SameKeys g g') (id : TypeId) : g'.exprAt id = g.exprAt id := by
  induction id using Nat.strongRecOn with
  | ind id ih =>
    rw [Registry.exprAt, Registry.exprAt, h.argument, h.key]
    cases (g.get id).argument with
    | none => rfl
    | some arg =>
      by_cases hlt : arg < id
      · simp only [hlt, ↓reduceIte, ih arg hlt]
      · simp only [hlt, ↓reduceIte]

theorem Grows.exprAt (h : Grows g g') (hg : g.Sound) (hg' : g'.Sound) (hid : id < g.size) :
    g'.exprAt id = g.exprAt id :=
  hg'.exprAt_of_findExpr? (h.findExpr? (hg.findExpr?_exprAt hid))

end TypeLang.Registry
