import TypeLang.Proofs.References

/-! # Chains of arguments

Two walks go down from a generic type along its arguments: `leaf` counts the steps, and `codeType`
puts a sequence around the spelling for each of them. Both would stop at an argument that is not older
than the type built from it. A reachable registry has none, so both go on to where the arguments end
(`IsChain`, `isChain_iff`), and what they give differs from what they give at the leaf in as many
sequences as there are opening brackets in the name. -/

namespace TypeLang

namespace CodeType

theorem depth_iterate (n : Nat) (t : CodeType) : (sequence^[n] t).depth = n + t.depth := by
  induction n with
  | zero => simp
  | succ n ih =>
    rw [Function.iterate_succ_apply', depth, ih]
    omega

theorem leaf_iterate (n : Nat) (t : CodeType) : (sequence^[n] t).leaf = t.leaf := by
  induction n with
  | zero => rfl
  | succ n ih => rw [Function.iterate_succ_apply', leaf, ih]

theorem text_iterate (n : Nat) (t : CodeType) :
    (sequence^[n] t).text = t.text ++ String.join (List.replicate n "[]") := by
  induction n with
  | zero => simp
  | succ n ih =>
    rw [Function.iterate_succ_apply', text, ih, List.replicate_succ', String.join_append,
      String.append_assoc]
    simp

end CodeType

namespace Registry
variable {g : Registry} {id l : TypeId} {n : Nat}

/-- From the type at `id`, following arguments ends at `l` after `n` steps. -/
inductive IsChain (g : Registry) : TypeId → TypeId → Nat → Prop
  | last {id : TypeId} (h : (g.get id).argument = none) : IsChain g id id 0
  | step {id arg l : TypeId} {n : Nat} (h : (g.get id).argument = some arg) (hl : IsChain g arg l n) :
    IsChain g id l (n + 1)

/-! ### One step -/

theorem leaf_of_none (h : (g.get id).argument = none) : g.leaf id = (id, 0) := by
  rw [leaf, h]

theorem codeType_of_none (h : (g.get id).argument = none) :
    g.codeType id = g.leafCodeType (g.get id) := by
  rw [codeType, h]

namespace Sound
variable {arg : TypeId}

theorem leaf_of_some (hg : g.Sound) (h : (g.get id).argument = some arg) :
    g.leaf id = ((g.leaf arg).1, (g.leaf arg).2 + 1) := by
  rw [leaf, h]
  simp only [hg.older id arg h, ↓reduceIte]

theorem codeType_of_some (hg : g.Sound) (h : (g.get id).argument = some arg) :
    g.codeType id = .sequence (g.codeType arg) := by
  rw [codeType, h]
  simp only [hg.older id arg h, ↓reduceIte]

end Sound

/-! ### Whole chains -/

theorem isChain_leaf (hg : g.Sound) (id : TypeId) : g.IsChain id (g.leaf id).1 (g.leaf id).2 := by
  induction id using Nat.strongRecOn with
  | ind id ih =>
    cases h : (g.get id).argument with
    | none =>
      rw [leaf_of_none h]
      exact .last h
    | some arg =>
      rw [hg.leaf_of_some h]
      exact .step h (ih arg (hg.older id arg h))

namespace IsChain

theorem leaf_eq (hg : g.Sound) (h : g.IsChain id l n) : g.leaf id = (l, n) := by
  induction h with
  | last h => exact leaf_of_none h
  | step h _ ih => rw [hg.leaf_of_some h, ih]

theorem argument (h : g.IsChain id l n) : (g.get l).argument = none := by
  induction h with
  | last h => exact h
  | step _ _ ih => exact ih

theorem codeType_eq (hg : g.Sound) (h : g.IsChain id l n) :
    g.codeType id = CodeType.sequence^[n] (g.codeType l) := by
  induction h with
  | last => rfl
  | step h _ ih => rw [hg.codeType_of_some h, ih, Function.iterate_succ_apply']

/-- The name of a generic type has one opening bracket more than that of its argument. -/
theorem count_name (hg : g.WellSpelled) (hid : id < g.size) (h : g.IsChain id l n) :
    (g.get id).name.toList.count '<' = n := by
  induction h with
  | last h =>
    have hfits := hg.keyFits (hg.find?_key _ hid)
    obtain ⟨hname, hopen, -⟩ := hfits.plain (hfits.argument.symm.trans h)
    rw [hname, List.count_eq_zero.mpr hopen]
  | @step id arg l n h _ ih =>
    have hfits := hg.keyFits (hg.find?_key _ hid)
    obtain ⟨hlt, hname, -, hopen⟩ := hfits.generic arg (hfits.argument.symm.trans h)
    have harg := ih (Nat.lt_trans hlt hid)
    rw [hname]
    simp [List.count_append, List.count_eq_zero.mpr hopen, harg]

end IsChain

theorem isChain_iff (hg : g.Sound) : g.IsChain id l n ↔ g.leaf id = (l, n) := by
  refine ⟨fun h => h.leaf_eq hg, fun h => ?_⟩
  have hchain := isChain_leaf hg id
  rwa [h] at hchain

/-! ### Leaves -/

theorem leaf_codeType_of_none (h : (g.get l).argument = none) :
    (g.codeType l).leaf = g.codeType l ∧ (g.codeType l).depth = 0 := by
  rw [codeType_of_none h, leafCodeType]
  cases (g.get l).scalar with
  | none => exact ⟨rfl, rfl⟩
  | some s => exact ⟨rfl, rfl⟩

theorem Seeded.eq_scalarId_iff (hg : g.Seeded) (s : Scalar) :
    (g.get l).scalar = some s ↔ l = scalarId s := by
  rw [hg.scalar]
  constructor
  · intro h
    obtain ⟨hl, rfl⟩ := List.getElem?_eq_some_iff.mp h
    have hall : ∀ i, ∀ hi : i < Scalar.all.length, i = scalarId (Scalar.all.get ⟨i, hi⟩) := by decide
    exact hall l hl
  · rintro rfl
    cases s <;> rfl

theorem encoding_eq_textInt64_iff (t : CodeType) :
    t.encoding = .textInt64 ↔ t.leaf = .scalar .int64 := by
  unfold CodeType.encoding
  split
  next s hs =>
    rw [hs]
    cases s <;> simp [Scalar.isTextEncoded]
  next hs =>
    refine ⟨fun h => (by cases h), fun h => ?_⟩
    exact absurd h (hs _)

theorem codeType_eq_scalar_iff {s : Scalar} (h : (g.get l).argument = none) :
    g.codeType l = .scalar s ↔ (g.get l).scalar = some s := by
  rw [codeType_of_none h, leafCodeType]
  cases (g.get l).scalar <;> simp

/-- In a reachable registry the arguments of a type end at one leaf, which both walks find. The type
has as many levels as its name has opening brackets, and is spelled as its leaf in as many sequences;
it travels as text exactly if the leaf is the integer of 64 bits. -/
theorem walks_agree (hg : g.Reachable) (hid : id < g.size) :
    ∃ l n, g.leaf id = (l, n) ∧ (∀ l' n', g.IsChain id l' n' ↔ l' = l ∧ n' = n) ∧
      l < g.size ∧ (g.get l).argument = none ∧ n = (g.get id).name.toList.count '<' ∧
      g.codeType id = CodeType.sequence^[n] (g.codeType l) ∧
      (g.codeType id).depth = n ∧ (g.codeType id).leaf = g.codeType l ∧
      (g.codeType id).text = (g.codeType l).text ++ String.join (List.replicate n "[]") ∧
      ((g.codeType id).encoding = .textInt64 ↔ l = scalarId .int64) := by
  have hw := hg.wellSpelled
  have hs := hg.sound
  have hchain := isChain_leaf hs id
  obtain ⟨l, n, hleaf⟩ : ∃ l n, g.leaf id = (l, n) := ⟨_, _, rfl⟩
  rw [hleaf] at hchain
  have hlt : l < g.size := by
    have hle := leaf_le g id
    rw [hleaf] at hle
    exact Nat.lt_of_le_of_lt hle hid
  have hnone := hchain.argument
  have hcode := hchain.codeType_eq hs
  have hend := leaf_codeType_of_none hnone
  have hcodeLeaf : (g.codeType id).leaf = g.codeType l := by
    rw [hcode, CodeType.leaf_iterate, hend.1]
  refine ⟨l, n, hleaf, fun l' n' => ?_, hlt, hnone,
    (hchain.count_name hw hid).symm, hcode, ?_, hcodeLeaf, ?_, ?_⟩
  · rw [isChain_iff hs, hleaf, Prod.mk.injEq]
    exact ⟨fun h => ⟨h.1.symm, h.2.symm⟩, fun h => ⟨h.1.symm, h.2.symm⟩⟩
  · rw [hcode, CodeType.depth_iterate, hend.2, Nat.add_zero]
  · rw [hcode, CodeType.text_iterate]
  · rw [encoding_eq_textInt64_iff, hcodeLeaf, codeType_eq_scalar_iff hnone,
      hg.seeded.eq_scalarId_iff]

/-- The integer of 64 bits under two levels, one of which has blanks in it. -/
def matrix : Registry := Operation.perform (.resolve "vector< row<int64> >") initial

theorem walks_agree_matrix :
    (matrix.Reachable ∧ 8 < matrix.size) ∧ matrix.IsChain 8 4 2 ∧
      (matrix.get 8).name = "vector<row<Int64>>" ∧ (matrix.codeType 8).text = "Int64[][]" ∧
      (matrix.codeType 8).encoding = .textInt64 := by
  have hg : matrix.Reachable := .perform _ .initial
  have hid : 8 < matrix.size := by decide +kernel
  have hleaf : matrix.leaf 8 = (4, 2) := by decide +kernel
  obtain ⟨l, n, h, hchain, -, -, -, -, -, -, htext, hencoding⟩ := walks_agree hg hid
  obtain ⟨rfl, rfl⟩ : 4 = l ∧ 2 = n := by simpa using hleaf.symm.trans h
  refine ⟨⟨hg, hid⟩, (hchain 4 2).mpr ⟨rfl, rfl⟩, by decide +kernel, ?_, hencoding.mpr (by decide)⟩
  have hscalar : (matrix.codeType 4).text = "Int64" := by decide +kernel
  rw [htext, hscalar]
  decide

end Registry

end TypeLang
