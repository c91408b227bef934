import Mathlib.Data.List.TakeWhile
import Mathlib.Tactic.Common
import TypeLang.Proofs.TypeExpr

/-! # The written form of a type

`cutBrackets` undoes the writing of a generic type (`cutBrackets_eq_some_iff`), so the written form
tells well-formed expressions apart: `WellFormed.text_inj`. Reading a token gives a well-formed
expression, and if the token has no blanks, `normalize` gives the written form of what was read
(`normalize_of_parse`), although it never asks whether the token is well formed. -/

namespace TypeLang

open Text

/-! ### Cutting at the brackets -/

theorem dropWhile_bne_eq_cons {x y : Char} {cs rest : List Char}
    (h : cs.dropWhile (· != x) = y :: rest) : y = x ∧ cs = cs.takeWhile (· != x) ++ x :: rest := by
  have hy : y = x := by
    have := List.head?_dropWhile_not (· != x) cs
    rw [h] at this
    simpa using this
  refine ⟨hy, ?_⟩
  have := List.takeWhile_append_dropWhile (p := (· != x)) (l := cs)
  rw [h, hy] at this
  exact this.symm

theorem not_mem_takeWhile_bne (x : Char) (cs : List Char) : x ∉ cs.takeWhile (· != x) := by
  intro h
  have := List.mem_takeWhile_imp h
  simp at this

theorem takeWhile_bne_append {x : Char} {cs rest : List Char} (h : x ∉ cs) :
    (cs ++ x :: rest).takeWhile (· != x) = cs := by
  rw [List.takeWhile_append_of_pos (fun c hc => by simpa using fun he : c = x => h (he ▸ hc))]
  simp

theorem dropWhile_bne_append {x : Char} {cs rest : List Char} (h : x ∉ cs) :
    (cs ++ x :: rest).dropWhile (· != x) = x :: rest := by
  rw [List.dropWhile_append_of_pos (fun c hc => by simpa using fun he : c = x => h (he ▸ hc))]
  simp

theorem cutBrackets_eq_none {cs : List Char} (h : '<' ∉ cs) : cutBrackets cs = none := by
  have hnil : cs.dropWhile (· != '<') = [] := List.dropWhile_eq_nil_iff.mpr fun x hx =>
    bne_iff_ne.mpr fun heq => h (heq ▸ hx)
  rw [cutBrackets, hnil]

/-- A cut gives the parts of a token, of which the first has no `<` and the last no `>`. -/
theorem cutBrackets_eq_some_iff {cs : List Char} {b : Bracketed} :
    cutBrackets cs = some b ↔
      cs = b.before ++ '<' :: b.inner ++ '>' :: b.after ∧ '<' ∉ b.before ∧ '>' ∉ b.after := by
  constructor
  · intro h
    unfold cutBrackets at h
    split at h
    · cases h
    next x rest hrest =>
      split at h
      · cases h
      next y inner hinner =>
        obtain rfl := Option.some.inj h
        obtain ⟨-, hcs⟩ := dropWhile_bne_eq_cons hrest
        obtain ⟨-, hr⟩ := dropWhile_bne_eq_cons hinner
        have hrest' : rest = inner.reverse ++ '>' :: (rest.reverse.takeWhile (· != '>')).reverse := by
          have := congrArg List.reverse hr
          simpa using this
        refine ⟨?_, not_mem_takeWhile_bne _ _, fun hmem => ?_⟩
        · simp only [List.cons_append, List.append_assoc]
          rw [← hrest']
          exact hcs
        · exact not_mem_takeWhile_bne _ _ (List.mem_reverse.mp hmem)
  · rintro ⟨hcs, hb, ha⟩
    obtain ⟨before, inner, after⟩ := b
    simp only at hcs hb ha
    have ha' : '>' ∉ after.reverse := fun h => ha (List.mem_reverse.mp h)
    have hrev : (inner ++ '>' :: after).reverse = after.reverse ++ '>' :: inner.reverse := by simp
    rw [hcs, List.append_assoc, List.cons_append, cutBrackets, dropWhile_bne_append hb]
    simp only
    rw [hrev, dropWhile_bne_append ha', takeWhile_bne_append ha', takeWhile_bne_append hb]
    simp

namespace TypeExpr
variable {a b e : TypeExpr} {cs : List Char} {token : String}

/-! ### Well-formed expressions -/

/-- Brackets stand only where the written form of a generic type has them; the name in front of a
`<` may hold a `>`. -/
def WellFormed : TypeExpr → Prop
  | name s => '<' ∉ s.toList ∧ '>' ∉ s.toList
  | generic outer a => outer ≠ "" ∧ '<' ∉ outer.toList ∧ a.WellFormed

theorem cutBrackets_text_generic {outer : String} (h : '<' ∉ outer.toList) :
    cutBrackets (generic outer a).text.toList = some ⟨outer.toList, a.text.toList, []⟩ :=
  cutBrackets_eq_some_iff.mpr ⟨by simp [text], h, List.not_mem_nil⟩

/-- The written form of a well-formed expression can be read in one way only. -/
theorem WellFormed.text_inj (ha : a.WellFormed) (hb : b.WellFormed) (h : a.text = b.text) : a = b := by
  induction a generalizing b with
  | name s =>
    cases b with
    | name t => exact congrArg name h
    | generic outer y =>
      have hcut := cutBrackets_text_generic (a := y) hb.2.1
      rw [← h, text, cutBrackets_eq_none ha.1] at hcut
      cases hcut
  | generic outer x ih =>
    have hcut := cutBrackets_text_generic (a := x) ha.2.1
    cases b with
    | name t =>
      rw [h, text, cutBrackets_eq_none hb.1] at hcut
      cases hcut
    | generic outer' y =>
      rw [h, cutBrackets_text_generic hb.2.1] at hcut
      simp only [Option.some.injEq, Bracketed.mk.injEq, String.toList_inj, and_true] at hcut
      rw [hcut.1, ih ha.2.2 hb.2.2 hcut.2.symm]

theorem wellFormed_codeName (s : Scalar) : (name s.codeName).WellFormed := by
  cases s <;> simp [WellFormed, Scalar.codeName]

theorem wellFormed_ofBare (h₁ : '<' ∉ token.toList) (h₂ : '>' ∉ token.toList) :
    (ofBare token).WellFormed := by
  unfold ofBare normalizeBare
  split
  · exact ⟨by decide, by decide, wellFormed_codeName .byte⟩
  · cases Scalar.ofToken? token with
    | none => exact ⟨h₁, h₂⟩
    | some s => exact wellFormed_codeName s

theorem text_ofBare (token : String) : (ofBare token).text = normalizeBare token := by
  unfold ofBare
  split
  next h => rw [normalizeBare, if_pos h]; rfl
  next h => rfl

/-! ### What is read from a token -/

theorem wellFormed_of_parseChars (h : parseChars cs = .ok e) : e.WellFormed := by
  fun_induction parseChars cs generalizing e with
  | case1 cs token b hcut hok =>
    rename_i ih
    cases hin : parseChars b.inner with
    | error m => rw [hin] at h; cases h
    | ok a =>
      rw [hin] at h
      cases h
      obtain ⟨-, hb, -⟩ := cutBrackets_eq_some_iff.mp hcut
      refine ⟨fun hnil => hok.1 ?_, by simpa using hb, ih hin⟩
      simpa using hnil
  | case2 => cases h
  | case3 => cases h
  | case4 cs token hcut =>
    rename_i hany
    cases h
    simp only [hasBracket, List.any_eq_true, not_exists, not_and, Bool.or_eq_true, beq_iff_eq] at hany
    refine wellFormed_ofBare ?_ ?_ <;> rw [String.toList_ofList] <;> intro hmem
    · exact hany _ hmem (.inl rfl)
    · exact hany _ hmem (.inr rfl)

theorem wellFormed_of_parse (h : parse token = .ok e) : e.WellFormed := wellFormed_of_parseChars h

end TypeExpr

/-! ### Normal spellings -/

/-- No character of the text is white space. -/
def Blankless (cs : List Char) : Prop := ∀ c ∈ cs, isBlank c = false

instance (cs : List Char) : Decidable (Blankless cs) :=
  decidable_of_iff (cs.all (!isBlank ·) = true) (by simp [Blankless])

theorem dropWhile_isBlank {cs : List Char} (h : Blankless cs) : cs.dropWhile isBlank = cs := by
  cases cs with
  | nil => rfl
  | cons c cs => rw [List.dropWhile_cons, h c List.mem_cons_self, if_neg Bool.false_ne_true]

theorem trim_of_blankless {cs : List Char} (h : Blankless cs) : trim cs = cs := by
  have hrev : Blankless cs.reverse := fun c hc => h c (List.mem_reverse.mp hc)
  rw [trim, trimStart, dropWhile_isBlank h, trimEnd, dropWhile_isBlank hrev, List.reverse_reverse]

namespace TypeExpr
variable {e : TypeExpr} {cs : List Char} {token : String}

theorem normalizeChars_of_parseChars (hcs : Blankless cs) (h : parseChars cs = .ok e) :
    normalizeChars cs = e.text.toList := by
  fun_induction parseChars cs generalizing e with
  | case1 cs token b hcut hok =>
    rename_i ih
    have htoken : token = cs := trim_of_blankless hcs
    rw [htoken] at hcut
    obtain ⟨hparts, -, -⟩ := cutBrackets_eq_some_iff.mp hcut
    have hinner : Blankless b.inner := fun c hc => hcs c (by rw [hparts]; simp [hc])
    cases hin : parseChars b.inner with
    | error m => rw [hin] at h; cases h
    | ok a =>
      rw [hin] at h
      cases h
      rw [normalizeChars]
      split
      next b' hb' =>
        rw [hcut] at hb'
        cases hb'
        rw [ih hinner hin, hok.2.2]
        simp [text]
      next hnone => rw [hcut] at hnone; cases hnone
  | case2 => cases h
  | case3 => cases h
  | case4 cs token hcut =>
    rename_i hany
    have htoken : token = cs := trim_of_blankless hcs
    rw [htoken] at hcut h
    cases h
    rw [normalizeChars]
    split
    next b hb => rw [hcut] at hb; cases hb
    next => rw [text_ofBare]

/-- The normal spelling of a token is the written form of the expression that it stands for. -/
theorem normalize_of_parse (hblank : Blankless token.toList) (h : parse token = .ok e) :
    normalize token = e.text := by
  rw [normalize, normalizeChars_of_parseChars hblank h, String.ofList_toList]

end TypeExpr

end TypeLang
