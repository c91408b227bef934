import TypeLang.Proofs.Words

/-! # Nested types

Two tests look at the brackets of a type. A line may only hold types whose brackets pair up
(`Signature.isBalanced_iff`), and a registry cuts a type at its first `<` and its last `>`, level by
level. Neither test alone asks for much: `a<b>c<d>` and `a<>` pass the first, `a>b<c>` the second. A
type that passes both is `w₁<w₂<...<wₙ>...>`, with a word at each level and all closing brackets at the
end: the cuts find the opening brackets one by one, each with a closing one at the end, and since there
are no more closing brackets than opening ones, none is left over for the words
(`nested_of_parseChars`). -/

namespace TypeLang

open Text Naming

/-! ### Pairs of brackets -/

namespace Signature
variable {depth : Nat} {cs : List Char}

/-- No bracket is closed before it is opened, all of them are closed, and if there are any then one of
them ends the text. -/
structure Balanced (cs : List Char) : Prop where
  opened : ∀ p, p <+: cs → p.count '>' ≤ p.count '<'
  closed : cs.count '>' = cs.count '<'
  last : '<' ∈ cs → cs.getLast? = some '>'

theorem forall_prefix_cons {P : List Char → Prop} {c : Char} :
    (∀ p, p <+: c :: cs → P p) ↔ P [] ∧ ∀ p, p <+: cs → P (c :: p) := by
  constructor
  · intro h
    exact ⟨h [] List.nil_prefix, fun p hp => h _ (List.cons_prefix_cons.mpr ⟨rfl, hp⟩)⟩
  · rintro ⟨hnil, hcons⟩ p hp
    rcases List.prefix_cons_iff.mp hp with rfl | ⟨q, rfl, hq⟩
    · exact hnil
    · exact hcons q hq

theorem count_cons_open (cs : List Char) :
    ('<' :: cs).count '<' = cs.count '<' + 1 ∧ ('<' :: cs).count '>' = cs.count '>' :=
  ⟨List.count_cons_self, List.count_cons_of_ne (by decide)⟩

theorem count_cons_close (cs : List Char) :
    ('>' :: cs).count '<' = cs.count '<' ∧ ('>' :: cs).count '>' = cs.count '>' + 1 :=
  ⟨List.count_cons_of_ne (by decide), List.count_cons_self⟩

theorem count_wrap (w cs : List Char) :
    (w ++ '<' :: cs ++ ['>']).count '<' = w.count '<' + cs.count '<' + 1 ∧
      (w ++ '<' :: cs ++ ['>']).count '>' = w.count '>' + cs.count '>' + 1 := by
  simp only [List.count_append, count_cons_open, count_cons_close, List.count_nil, and_true]
  omega

/-- Counting with `depth` brackets already open. -/
theorem closes_iff : closes depth cs = true ↔
    (∀ p, p <+: cs → p.count '>' ≤ depth + p.count '<') ∧ cs.count '>' = depth + cs.count '<' := by
  fun_induction closes depth cs with
  | case1 depth =>
    rw [beq_iff_eq]
    constructor
    · rintro rfl
      refine ⟨fun p hp => ?_, rfl⟩
      rw [List.prefix_nil.mp hp]
      exact Nat.le_refl 0
    · rintro ⟨-, h⟩
      exact h.symm
  | case2 depth cs ih =>
    simp only [ih, forall_prefix_cons, count_cons_open, List.count_nil, Nat.zero_le, true_and]
    simp only [Nat.add_assoc, Nat.add_comm 1]
  | case3 cs =>
    -- a closing bracket that nothing has opened
    simp only [forall_prefix_cons, count_cons_close, Bool.false_eq_true, false_iff]
    rintro ⟨⟨-, h⟩, -⟩
    have := h [] List.nil_prefix
    simp at this
  | case4 cs depth hne ih =>
    simp only [ih, forall_prefix_cons, count_cons_close, List.count_nil, Nat.zero_le, true_and]
    simp only [Nat.add_right_comm depth 1, Nat.add_le_add_iff_right, Nat.add_right_cancel_iff]
  | case5 depth c cs hopen hclose ih =>
    simp only [ih, forall_prefix_cons, List.count_cons_of_ne hopen, List.count_cons_of_ne hclose,
      List.count_nil, Nat.zero_le, true_and]

theorem isBalanced_iff {type : String} : isBalanced type = true ↔ Balanced type.toList := by
  have hlast : (!type.toList.contains '<' || type.toList.getLast? == some '>') = true ↔
      ('<' ∈ type.toList → type.toList.getLast? = some '>') := by
    rw [Bool.or_eq_true, Bool.not_eq_true', ← Bool.not_eq_true, List.contains_iff_mem, beq_iff_eq,
      imp_iff_not_or]
  rw [isBalanced, Bool.and_eq_true, closes_iff, hlast]
  simp only [Nat.zero_add]
  exact ⟨fun ⟨⟨hopened, hclosed⟩, hlast⟩ => ⟨hopened, hclosed, hlast⟩,
    fun ⟨hopened, hclosed, hlast⟩ => ⟨⟨hopened, hclosed⟩, hlast⟩⟩

/-- Characters that are no brackets do not count. -/
theorem closes_append {w : List Char} (hopen : '<' ∉ w) (hclose : '>' ∉ w) (depth : Nat)
    (cs : List Char) : closes depth (w ++ cs) = closes depth cs := by
  induction w with
  | nil => rfl
  | cons c w ih =>
    rw [List.mem_cons, not_or] at hopen hclose
    simp only [List.cons_append, closes, if_neg (Ne.symm hopen.1), if_neg (Ne.symm hclose.1),
      ih hopen.2 hclose.2]

end Signature

/-! ### Words in brackets -/

/-- The characters of `w₁<w₂<...<wₙ>...>`. -/
def nestedChars (ws : List (List Char)) : List Char :=
  ['<'].intercalate ws ++ List.replicate (ws.length - 1) '>'

/-- `w₁<w₂<...<wₙ>...>`: a bracket opens between neighbours, and all of them are closed at the end. -/
def nested (ws : List String) : String := String.ofList (nestedChars (ws.map String.toList))

/-- What may stand on one level: letters, digits and underscores, at least one. -/
def IsLevel (w : List Char) : Prop := w ≠ [] ∧ ∀ c ∈ w, (c.isAlphanum || c == '_') = true

theorem isLevel_toList_iff {w : String} : IsLevel w.toList ↔ isStem w = true := by
  rw [isStem, Bool.and_eq_true, List.isSome_head?, Signature.isIdentifier, List.all_eq_true, IsLevel]

section
variable {w : List Char}

theorem IsLevel.open_not_mem (h : IsLevel w) : '<' ∉ w := fun hc => absurd (h.2 _ hc) (by decide)

theorem IsLevel.close_not_mem (h : IsLevel w) : '>' ∉ w := fun hc => absurd (h.2 _ hc) (by decide)

theorem isLevel_of_parts (hne : w ≠ []) (hpart : ∀ c ∈ w, Token.isWordPart c = true)
    (hopen : '<' ∉ w) (hclose : '>' ∉ w) : IsLevel w := by
  refine ⟨hne, fun c hc => ?_⟩
  have hc' := hpart c hc
  simp only [Token.isWordPart, Bool.or_eq_true, beq_iff_eq] at hc' ⊢
  rcases hc' with (h | rfl) | rfl
  · exact h
  · exact absurd hc hopen
  · exact absurd hc hclose

end

/-- The nested types, one level after the other. -/
inductive Nested : List Char → Prop where
  | word {w : List Char} (hw : IsLevel w) : Nested w
  | wrap {w cs : List Char} (hw : IsLevel w) (h : Nested cs) : Nested (w ++ '<' :: cs ++ ['>'])

theorem nestedChars_cons_cons (w v : List Char) (ws : List (List Char)) :
    nestedChars (w :: v :: ws) = w ++ '<' :: nestedChars (v :: ws) ++ ['>'] := by
  have hreplicate : List.replicate ((w :: v :: ws).length - 1) '>' =
      List.replicate ((v :: ws).length - 1) '>' ++ ['>'] := by
    rw [← List.replicate_succ']
    rfl
  rw [nestedChars, nestedChars, List.intercalate_cons_cons, hreplicate]
  simp

theorem nested_iff {cs : List Char} :
    Nested cs ↔ ∃ ws, ws ≠ [] ∧ (∀ w ∈ ws, IsLevel w) ∧ cs = nestedChars ws := by
  constructor
  · intro h
    induction h with
    | @word w hw => exact ⟨[w], List.cons_ne_nil _ _, by simpa using hw, by simp [nestedChars]⟩
    | @wrap w cs hw _ ih =>
      obtain ⟨ws, hne, hws, rfl⟩ := ih
      obtain ⟨v, vs, rfl⟩ := List.exists_cons_of_ne_nil hne
      refine ⟨w :: v :: vs, List.cons_ne_nil _ _, ?_, (nestedChars_cons_cons w v vs).symm⟩
      exact List.forall_mem_cons.mpr ⟨hw, hws⟩
  · rintro ⟨ws, hne, hws, rfl⟩
    induction ws with
    | nil => exact absurd rfl hne
    | cons w ws ih =>
      obtain ⟨hw, hrest⟩ := List.forall_mem_cons.mp hws
      cases ws with
      | nil => simpa [nestedChars] using Nested.word hw
      | cons v ws =>
        rw [nestedChars_cons_cons]
        exact .wrap hw (ih (List.cons_ne_nil v ws) hrest)

theorem exists_words_iff {t : String} : Nested t.toList ↔
    ∃ ws : List String, ws ≠ [] ∧ (∀ w ∈ ws, isStem w = true) ∧ t = nested ws := by
  rw [nested_iff]
  constructor
  · rintro ⟨ws, hne, hws, ht⟩
    have hmap : (ws.map String.ofList).map String.toList = ws := by
      simp [List.map_map, Function.comp_def]
    refine ⟨ws.map String.ofList, by simpa using hne, fun w hw => ?_, ?_⟩
    · obtain ⟨cs, hcs, rfl⟩ := List.mem_map.mp hw
      rw [← isLevel_toList_iff, String.toList_ofList]
      exact hws cs hcs
    · rw [nested, hmap, ← ht, String.ofList_toList]
  · rintro ⟨ws, hne, hws, rfl⟩
    refine ⟨ws.map String.toList, by simpa using hne, fun w hw => ?_, String.toList_ofList⟩
    obtain ⟨u, hu, rfl⟩ := List.mem_map.mp hw
    exact isLevel_toList_iff.mpr (hws u hu)

namespace Nested
variable {cs : List Char}

theorem ne_nil (h : Nested cs) : cs ≠ [] := by
  cases h with
  | word hw => exact hw.1
  | wrap => simp

theorem blankless (h : Nested cs) : Blankless cs := by
  induction h with
  | word hw => exact fun c hc => isBlank_of_word (hw.2 c hc)
  | wrap hw _ ih =>
    intro c hc
    simp only [List.mem_append, List.mem_cons, List.not_mem_nil, or_false] at hc
    rcases hc with (hc | rfl | hc) | rfl
    · exact isBlank_of_word (hw.2 c hc)
    · decide
    · exact ih c hc
    · decide

theorem count_eq (h : Nested cs) : cs.count '>' = cs.count '<' := by
  induction h with
  | word hw => rw [List.count_eq_zero.mpr hw.open_not_mem, List.count_eq_zero.mpr hw.close_not_mem]
  | @wrap w cs hw _ ih =>
    have hcount := Signature.count_wrap w cs
    rw [hcount.1, hcount.2, List.count_eq_zero.mpr hw.open_not_mem,
      List.count_eq_zero.mpr hw.close_not_mem, ih]

/-- What follows a nested type is at the depth at which the type was. -/
theorem closes_append (h : Nested cs) (depth : Nat) (rest : List Char) :
    Signature.closes depth (cs ++ rest) = Signature.closes depth rest := by
  induction h generalizing depth rest with
  | word hw => exact Signature.closes_append hw.open_not_mem hw.close_not_mem depth rest
  | wrap hw _ ih =>
    rw [List.append_assoc, List.append_assoc,
      Signature.closes_append hw.open_not_mem hw.close_not_mem]
    simp only [List.cons_append, Signature.closes, ↓reduceIte, ih]
    rfl

theorem isBalanced (h : Nested cs) : Signature.isBalanced (String.ofList cs) = true := by
  have hcloses := h.closes_append 0 []
  rw [List.append_nil] at hcloses
  rw [Signature.isBalanced, String.toList_ofList, hcloses, Bool.and_eq_true]
  refine ⟨rfl, ?_⟩
  cases h with
  | word hw =>
    rw [Bool.or_eq_true, Bool.not_eq_true', ← Bool.not_eq_true, List.contains_iff_mem]
    exact .inl hw.open_not_mem
  | wrap => rw [List.getLast?_concat, beq_self_eq_true, Bool.or_true]

theorem exists_parseChars (h : Nested cs) : ∃ e, TypeExpr.parseChars cs = .ok e := by
  induction h with
  | @word w hw =>
    have hid : Signature.isIdentifier (String.ofList w) = true := by
      rw [Signature.isIdentifier, String.toList_ofList, List.all_eq_true]
      exact hw.2
    have hparse := TypeExpr.parse?_eq_some_iff.mp (parse?_of_isIdentifier hid)
    rw [TypeExpr.parse, String.toList_ofList] at hparse
    exact ⟨_, hparse⟩
  | @wrap w cs hw h ih =>
    obtain ⟨e, he⟩ := ih
    have hcut : cutBrackets (w ++ '<' :: cs ++ ['>']) = some ⟨w, cs, []⟩ :=
      cutBrackets_eq_some_iff.mpr ⟨rfl, hw.open_not_mem, List.not_mem_nil⟩
    refine ⟨.generic (String.ofList w) e, ?_⟩
    rw [TypeExpr.parseChars, trim_of_blankless (Nested.wrap hw h).blankless]
    split
    next b hb =>
      rw [hcut] at hb
      cases hb
      rw [if_pos ⟨hw.1, h.ne_nil, rfl⟩, he]
      rfl
    next hnone => rw [hcut] at hnone; cases hnone

end Nested

/-- A type that can be read, and has no more closing brackets than opening ones, is nested: the
brackets at which it is cut use up the closing ones. -/
theorem nested_of_parseChars {cs : List Char} {e : TypeExpr} (h : TypeExpr.parseChars cs = .ok e)
    (hpart : ∀ c ∈ cs, Token.isWordPart c = true) (hne : cs ≠ [])
    (hcount : cs.count '>' ≤ cs.count '<') : Nested cs := by
  have htrim : trim cs = cs :=
    trim_of_blankless fun c hc => TypeExpr.isBlank_of_isWordPart (hpart c hc)
  fun_induction TypeExpr.parseChars cs generalizing e with
  | case1 cs token b hcut hok =>
    rename_i ih
    obtain ⟨a, ha, rfl⟩ := exists_of_map_eq_ok h
    replace hcut : cutBrackets (trim cs) = some b := hcut
    obtain ⟨before, inner, after⟩ := b
    obtain ⟨hbefore, hinner, rfl⟩ := hok
    rw [htrim] at hcut
    obtain ⟨hparts, hopen, -⟩ := cutBrackets_eq_some_iff.mp hcut
    simp only at hparts hopen hbefore hinner
    subst hparts
    have hlevels := Signature.count_wrap before inner
    rw [List.count_eq_zero.mpr hopen] at hlevels
    have hnested : Nested inner := by
      have hle : inner.count '>' ≤ inner.count '<' := by omega
      refine ih ha (fun c hc => hpart c (by simp [hc])) hinner hle ?_
      exact trim_of_blankless fun c hc => TypeExpr.isBlank_of_isWordPart (hpart c (by simp [hc]))
    -- the argument has as many of one kind as of the other, so nothing is left for the word
    have hclose : '>' ∉ before := by
      have := hnested.count_eq
      exact List.count_eq_zero.mp (by omega)
    exact .wrap (isLevel_of_parts hbefore (fun c hc => hpart c (by simp [hc])) hopen hclose) hnested
  | case2 => cases h
  | case3 => cases h
  | case4 cs token hcut =>
    rename_i hany
    have htoken : token = cs := htrim
    rw [htoken] at hany
    simp only [hasBracket, List.any_eq_true, not_exists, not_and, Bool.or_eq_true, beq_iff_eq] at hany
    exact .word (isLevel_of_parts hne hpart (fun hc => hany _ hc (.inl rfl))
      fun hc => hany _ hc (.inr rfl))

/-- Of the words of a line, those that pass both the test of the line and the test of the registry are
the nested ones. -/
theorem accepted_iff_nested {t : String} (h : Token.isWord t = true) :
    (Signature.isBalanced t = true ∧ Registry.checkToken t = .ok ()) ↔
      ∃ ws : List String, ws ≠ [] ∧ (∀ w ∈ ws, isStem w = true) ∧ t = nested ws := by
  rw [← exists_words_iff, Registry.checkToken_eq_ok_iff]
  constructor
  · rintro ⟨hbalanced, e, he⟩
    rw [Token.isWord, Bool.and_eq_true, List.all_eq_true] at h
    have hne : t.toList ≠ [] := by
      intro hnil
      rw [hnil] at h
      cases h.1
    exact nested_of_parseChars (TypeExpr.parse?_eq_some_iff.mp he) h.2 hne
      (Signature.isBalanced_iff.mp hbalanced).closed.le
  · intro hnested
    have hbalanced := hnested.isBalanced
    rw [String.ofList_toList] at hbalanced
    obtain ⟨e, he⟩ := hnested.exists_parseChars
    exact ⟨hbalanced, e, TypeExpr.parse?_eq_some_iff.mpr he⟩

example : Registry.checkToken "a>b<c>" = .ok () ∧ Signature.isBalanced "a>b<c>" = false := by
  decide +kernel

/-- A type of three levels is accepted; one with a second group of brackets is not. -/
theorem accepted_iff_nested_levels :
    (Token.isWord "map<_9<int53>>" = true ∧ Signature.isBalanced "map<_9<int53>>" = true ∧
      Registry.checkToken "map<_9<int53>>" = .ok ()) ∧
    (Token.isWord "a<b>c<d>" = true ∧ Signature.isBalanced "a<b>c<d>" = true ∧
      ¬ ∃ ws : List String, ws ≠ [] ∧ (∀ w ∈ ws, isStem w = true) ∧ "a<b>c<d>" = nested ws) := by
  refine ⟨⟨by decide, ?_⟩, by decide, by decide, fun hws => ?_⟩
  · exact (accepted_iff_nested (by decide)).mpr
      ⟨["map", "_9", "int53"], by decide, by decide, by decide⟩
  · have haccepted := (accepted_iff_nested (t := "a<b>c<d>") (by decide)).mpr hws
    exact absurd haccepted.2 (by decide +kernel)

end TypeLang
