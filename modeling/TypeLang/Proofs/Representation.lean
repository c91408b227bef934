import TypeLang.Proofs.Catalogue

/-! # How a registry represents types

The index is kept beside the records and changes with them: in every reachable registry each record has
one key in the index, and each key is what the record says of itself (`keys_represent`). The name is what
the key spells. All types have well-formed expressions (`WellSpelled`), which is why no two records share
a name, and the scalars are the records at the front (`Seeded`). -/

namespace TypeLang

theorem TypeExpr.WellFormed.of_mem_parts {e x : TypeExpr} (he : e.WellFormed) (hx : x ∈ e.parts) :
    x.WellFormed := by
  induction e with
  | name s => rwa [List.mem_singleton.mp hx]
  | generic outer a ih =>
    rcases List.mem_cons.mp hx with rfl | hx
    · exact he
    · exact ih he.2.2 hx

namespace Registry
open Admission TypeRecord
variable {g g' : Registry} {id : TypeId} {k : TypeKey}

/-! ### Names -/

/-- A sound registry all of whose types have well-formed expressions. -/
structure WellSpelled (g : Registry) : Prop extends Sound g where
  wellFormed : ∀ id < g.size, (g.exprAt id).WellFormed

theorem wellSpelled_initial : initial.WellSpelled where
  toSound := Sound.initial
  wellFormed id hid := by
    have hall : ∀ id < initial.size, (initial.get id).argument = none ∧
        ∃ s ∈ Scalar.all, (initial.key id).name = s.codeName := by decide
    obtain ⟨harg, s, -, hname⟩ := hall id hid
    rw [exprAt_of_none harg, hname]
    exact TypeExpr.wellFormed_codeName s

theorem WellSpelled.intern {e : TypeExpr} (hg : g.WellSpelled) (he : e.WellFormed) :
    (g.intern e).2.WellSpelled where
  toSound := hg.toSound.intern e
  wellFormed id hid := by
    rcases Nat.lt_or_ge id g.size with hlt | hge
    · rw [(grows_intern g e).exprAt hg.toSound (hg.toSound.intern e) hlt]
      exact hg.wellFormed id hlt
    · exact he.of_mem_parts (exprAt_intern_mem_parts hg.toSound hge hid)

theorem stable_wellSpelled : Stable WellSpelled := by
  refine .of_identity (fun g token e hparse hg => ?_) (fun g id f hf hg => ?_) fun g f hnew hg => ?_
  · exact hg.intern (TypeExpr.wellFormed_of_parse hparse)
  · have hsame := sameKeys_update g id f hf.argument hf.name
    refine ⟨hg.sameKeys hsame hg.filed, fun j hj => ?_⟩
    rw [hsame.exprAt]
    exact hg.wellFormed j (hsame.size ▸ hj)
  · have hsame := sameKeys_push g f
    refine ⟨hg.sameKeys hsame (hg.filed.push hnew), fun j hj => ?_⟩
    rw [hsame.exprAt]
    exact hg.wellFormed j hj

theorem Reachable.wellSpelled (hg : g.Reachable) : g.WellSpelled :=
  hg.of_stable wellSpelled_initial stable_wellSpelled

/-- A name belongs to one record, because it is the written form of one expression. -/
theorem WellSpelled.name_inj (hg : g.WellSpelled) {i j : TypeId} (hi : i < g.size) (hj : j < g.size)
    (h : (g.get i).name = (g.get j).name) : i = j := by
  rw [hg.toSound.name_get, hg.toSound.name_get] at h
  exact hg.toSound.exprAt_inj hi hj ((hg.wellFormed i hi).text_inj (hg.wellFormed j hj) h)

/-! ### Scalars -/

/-- The scalars stand at the front, in their order, and nowhere else. -/
structure Seeded (g : Registry) : Prop where
  size_le : Scalar.all.length ≤ g.size
  scalar : ∀ id, (g.get id).scalar = Scalar.all[id]?

theorem seeded_initial : initial.Seeded where
  size_le := by decide
  scalar id := by
    rcases Nat.lt_or_ge id initial.size with hid | hid
    · have hall : ∀ id < initial.size, (initial.get id).scalar = Scalar.all[id]? := by decide
      exact hall id hid
    · rw [get_of_size_le hid, List.getElem?_eq_none (Nat.le_trans (by decide) hid)]

theorem stable_seeded : Stable Seeded := by
  refine .of_identity (fun g token e _ hg => ?_) (fun g id f hf hg => ?_)
    fun g f _ hg => ⟨hg.size_le, hg.scalar⟩
  · have hgr := grows_intern g e
    refine ⟨Nat.le_trans hg.size_le hgr.size_le, fun j => ?_⟩
    rcases Nat.lt_or_ge j g.size with hj | hj
    · rw [hgr.kept j hj, hg.scalar]
    · -- a new record stands behind all scalars and is none
      rw [hgr.fresh j hj, List.getElem?_eq_none (Nat.le_trans hg.size_le hj)]
  · refine ⟨by rw [size_update]; exact hg.size_le, fun j => ?_⟩
    rw [map_get_update hf.scalar]
    exact hg.scalar j

theorem Reachable.seeded (hg : g.Reachable) : g.Seeded := hg.of_stable seeded_initial stable_seeded

/-! ### Functions -/

/-- No two functions share a name. -/
def DistinctFunctions (g : Registry) : Prop := (g.functions.toList.map (·.name)).Nodup

/-- Each name leads to one place, so no two functions share one. -/
theorem Filed.distinctFunctions (hg : g.Filed) : g.DistinctFunctions := by
  rw [DistinctFunctions, List.Nodup, List.pairwise_map, List.pairwise_iff_getElem]
  intro i j hi hj hlt heq
  have hplace : ∀ i (hi : i < g.functions.toList.length),
      g.functionIndex.lookup g.functions.toList[i].name = some i := by
    intro i hi
    rw [hg, ← Array.getElem?_toList, List.getElem?_eq_getElem hi, Option.map_some]
  have hi' := hplace i hi
  rw [heq, hplace j hj, Option.some.injEq] at hi'
  omega

theorem Reachable.distinctFunctions (hg : g.Reachable) : g.DistinctFunctions :=
  hg.sound.filed.distinctFunctions

/-! ### Keys -/

/-- What a key says of the record that it leads to. -/
structure KeyFits (g : Registry) (k : TypeKey) (id : TypeId) : Prop where
  lt_size : id < g.size
  argument : (g.get id).argument = k.argument
  plain : k.argument = none → (g.get id).name = k.name ∧ '<' ∉ k.name.toList ∧ '>' ∉ k.name.toList
  generic : ∀ arg, k.argument = some arg → arg < id ∧
    (g.get id).name = k.name ++ "<" ++ (g.get arg).name ++ ">" ∧ k.name ≠ "" ∧ '<' ∉ k.name.toList

theorem WellSpelled.keyFits (hg : g.WellSpelled) (h : g.find? k = some id) : g.KeyFits k id := by
  have hid := hg.lt_size_of_find? h
  have hkey := hg.key_of_find? h
  have harg := hg.argument_eq id
  have hname := hg.name_eq id
  have hwf := hg.wellFormed id hid
  rw [hkey] at harg hname
  refine ⟨hid, harg, fun hk => ?_, fun arg hk => ?_⟩
  · rw [exprAt_of_none (harg.trans hk), hkey] at hwf
    rw [keyText, hk, Option.elim_none] at hname
    exact ⟨hname, hwf⟩
  · rw [hg.toSound.exprAt_of_some (harg.trans hk), hkey] at hwf
    rw [keyText, hk, Option.elim_some] at hname
    exact ⟨hg.older id arg (harg.trans hk), hname, hwf.1, hwf.2.1⟩

/-- No entry of the index hides another. -/
theorem Sound.mem_index_iff (hg : g.Sound) : (k, id) ∈ g.index ↔ g.find? k = some id := by
  refine ⟨fun h => ?_, mem_index_of_find?⟩
  obtain ⟨hid, hkey⟩ := hg.indexed _ h
  rw [← show g.key id = k from hkey]
  exact hg.find?_key id hid

/-- In a reachable registry the index has one key for every record, and no entry that another hides. A key
leads to the record that it describes. No two records share a name, and the scalars are the records at the
front. -/
theorem keys_represent (hg : g.Reachable) :
    (∀ id < g.size, ∃! k, (k, id) ∈ g.index) ∧
    (∀ k id, (k, id) ∈ g.index ↔ g.find? k = some id) ∧
    (∀ k id, g.find? k = some id → g.KeyFits k id) ∧
    (∀ i < g.size, ∀ j < g.size, (g.get i).name = (g.get j).name → i = j) ∧
    Scalar.all.length ≤ g.size ∧ ∀ id < g.size, (g.get id).scalar = Scalar.all[id]? := by
  have hw := hg.wellSpelled
  have hs := hg.seeded
  refine ⟨fun id hid => ?_, fun k id => hw.mem_index_iff, fun k id h => hw.keyFits h,
    fun i hi j hj h => hw.name_inj hi hj h, hs.size_le, fun id _ => hs.scalar id⟩
  refine ⟨g.key id, mem_index_of_find? (hw.find?_key id hid), fun k hk => ?_⟩
  exact (hw.key_of_find? (hw.mem_index_iff.mp hk)).symm

/-- A type of two levels, named in two spellings. -/
def nested : Registry :=
  Operation.perform (.resolve "vector<vector<byte>>")
    (Operation.perform (.declare "vector<bytes>" none) initial)

theorem keys_represent_nested :
    nested.Reachable ∧ (⟨"vector", some 7⟩, 8) ∈ nested.index ∧ nested.size = 9 ∧
      nested.KeyFits ⟨"vector", some 7⟩ 8 ∧ ∃! k, (k, 8) ∈ nested.index := by
  have hg : nested.Reachable := .perform _ (.perform _ .initial)
  have hmem : (⟨"vector", some 7⟩, 8) ∈ nested.index := by decide +kernel
  have hsize : nested.size = 9 := by decide +kernel
  obtain ⟨hunique, hfound, hfits, -⟩ := keys_represent hg
  exact ⟨hg, hmem, hsize, hfits _ _ ((hfound _ _).mp hmem), hunique 8 (by rw [hsize]; decide)⟩

end Registry

end TypeLang
