import TypeLang.Proofs.Occurrences

/-! # Texts with bytes written out

Writing `bytes` out goes over a whole line and does not ask what stands there. It leaves a text as it is
exactly if no `:bytes` in it ends a word (`expandBytes_eq_self_iff`), and it passes through where the text
is cut at characters that are in no word (`expandBytes_append_cons`): at blanks, and at the `@` of a tag. So
the tags of a block have the same keys, and their texts are written out as well (`ofLines_expandLine`). -/

namespace TypeLang

open Text

/-- The text starts with a `:bytes` that ends a word. -/
def StartsBytes (cs : List Char) : Prop :=
  ∃ after, cs = ":bytes".toList ++ after ∧ endsWord after = true

/-- The text has a `:bytes` in it that ends a word. -/
def HasBytes (cs : List Char) : Prop :=
  ∃ before after, cs = before ++ (":bytes".toList ++ after) ∧ endsWord after = true

/-! ### Characters that are in a word and others -/

theorem isWordChar_of_word {c : Char} (h : (c.isAlphanum || c == '_') = true) : isWordChar c = true := by
  have hcode := code_of_word h
  rw [isWordChar, if_pos (by omega), h]

theorem not_isWordChar_of_isBlank {c : Char} (h : isBlank c = true) : isWordChar c = false := by
  have hapart : ∀ r ∈ blankRanges, ∀ s ∈ wordRanges, r.2 < s.1 ∨ s.2 < r.1 := by decide +kernel
  unfold isWordChar
  split
  · rw [Bool.eq_false_iff]
    intro hword
    rw [isBlank_of_word hword] at h
    cases h
  · rw [Bool.eq_false_iff]
    intro hword
    obtain ⟨r, hr, hlo, hhi⟩ := Ranges.has_iff.mp h
    obtain ⟨s, hs, hlo', hhi'⟩ := Ranges.has_iff.mp hword
    have := hapart r hr s hs
    omega

theorem endsWord_append_cons {c : Char} (hc : isWordChar c = false) (as bs : List Char) :
    endsWord (as ++ c :: bs) = endsWord as := by
  cases as with
  | nil => simp [endsWord, hc]
  | cons a as => rfl

section Expand
variable {as bs cs : List Char} {c : Char} {p : Char → Bool}

/-! ### What stays and what is written out -/

theorem expandBytes_cons_of_ne (hc : c ≠ ':') (cs : List Char) :
    expandBytes (c :: cs) = c :: expandBytes cs :=
  (expandBytes_cases c cs).resolve_right fun h => hc h.1

theorem expandBytes_append_of_not_mem (h : ':' ∉ as) (cs : List Char) :
    expandBytes (as ++ cs) = as ++ expandBytes cs := by
  induction as with
  | nil => rfl
  | cons c as ih =>
    rw [List.mem_cons, not_or] at h
    rw [List.cons_append, expandBytes_cons_of_ne (Ne.symm h.1), ih h.2, List.cons_append]

theorem expandBytes_keep (h : ¬ StartsBytes (c :: cs)) : expandBytes (c :: cs) = c :: expandBytes cs := by
  generalize hds : c :: cs = ds
  fun_cases expandBytes ds with
  | case1 => cases hds
  | case2 after =>
    obtain ⟨rfl, rfl⟩ := List.cons.inj hds
    rw [if_neg fun hends => h ⟨after, rfl, hends⟩]
    exact (congrArg (':' :: ·) (@expandBytes_append_of_not_mem "bytes".toList (by decide) after)).symm
  | case3 d ds =>
    obtain ⟨rfl, rfl⟩ := List.cons.inj hds
    rfl

theorem expandBytes_bytes (h : endsWord cs = true) :
    expandBytes (":bytes".toList ++ cs) = ":vector<byte>".toList ++ expandBytes cs := by
  show expandBytes (':' :: 'b' :: 'y' :: 't' :: 'e' :: 's' :: cs) = _
  rw [expandBytes, if_pos h]

/-- A text is empty, or starts with a `:bytes` that ends a word, or with a character that is kept. -/
@[elab_as_elim]
theorem expandBytes_induction {motive : List Char → Prop} (nil : motive [])
    (bytes : ∀ after, endsWord after = true → motive after → motive (":bytes".toList ++ after))
    (keep : ∀ c cs, ¬ StartsBytes (c :: cs) → motive cs → motive (c :: cs)) (cs : List Char) :
    motive cs := by
  induction hn : cs.length using Nat.strong_induction_on generalizing cs with
  | _ n ih =>
    subst hn
    cases cs with
    | nil => exact nil
    | cons c cs =>
      by_cases h : StartsBytes (c :: cs)
      · obtain ⟨after, hafter, hends⟩ := h
        have hlen : after.length < (c :: cs).length := by
          rw [hafter, List.length_append]
          exact Nat.lt_add_of_pos_left (by decide)
        rw [hafter]
        exact bytes after hends (ih _ hlen after rfl)
      · exact keep c cs h (ih _ (Nat.lt_succ_self _) cs rfl)

/-- A character that is in no word parts what is written out on either side of it. -/
theorem expandBytes_append_cons (hc : isWordChar c = false) (hne : c ≠ ':') (as bs : List Char) :
    expandBytes (as ++ c :: bs) = expandBytes as ++ c :: expandBytes bs := by
  induction as using expandBytes_induction with
  | nil => exact expandBytes_cons_of_ne hne bs
  | bytes after hends ih =>
    rw [List.append_assoc, expandBytes_bytes (by rw [endsWord_append_cons hc, hends]), ih,
      expandBytes_bytes hends, List.append_assoc]
  | keep d as hkeep ih =>
    have hkeep' : ¬ StartsBytes (d :: (as ++ c :: bs)) := by
      rintro ⟨after, hafter, hends⟩
      rcases List.append_eq_append_iff.mp (show (d :: as) ++ c :: bs = _ from hafter) with
        ⟨x, hx, hrest⟩ | ⟨x, hx, rfl⟩
      · -- the character would stand in `:bytes`
        cases x with
        | nil => exact hkeep ⟨[], by rw [hx, List.append_nil, List.append_nil], rfl⟩
        | cons e x =>
          obtain ⟨rfl, -⟩ := List.cons.inj hrest
          have hmem : c ∈ ":bytes".toList := by rw [hx]; simp
          have hbytes : ":bytes".toList.all (fun e => e == ':' || (e.isAlphanum || e == '_')) = true := by
            decide
          have hword := (Bool.or_eq_true_iff.mp (List.all_eq_true.mp hbytes c hmem)).resolve_left (by simpa)
          rw [isWordChar_of_word hword] at hc
          cases hc
      · rw [endsWord_append_cons hc] at hends
        exact hkeep ⟨x, hx, hends⟩
    rw [List.cons_append, expandBytes_keep hkeep', ih, expandBytes_keep hkeep, List.cons_append]

theorem takeWhile_expandBytes_of_colon (hp : p ':' = false) (cs : List Char) :
    (expandBytes cs).takeWhile p = cs.takeWhile p := by
  induction cs with
  | nil => rfl
  | cons c cs ih =>
    rcases expandBytes_cases c cs with he | ⟨rfl, ds, he⟩
    · rw [he, List.takeWhile_cons, List.takeWhile_cons, ih]
    · rw [he, List.takeWhile_cons, List.takeWhile_cons, hp]
      rfl

theorem dropWhile_expandBytes_of_colon (hp : p ':' = false) (cs : List Char) :
    (expandBytes cs).dropWhile p = expandBytes (cs.dropWhile p) := by
  induction cs with
  | nil => rfl
  | cons c cs ih =>
    rcases expandBytes_cases c cs with he | ⟨rfl, ds, he⟩
    · rw [he, List.dropWhile_cons, List.dropWhile_cons]
      split
      · exact ih
      · exact he.symm
    · rw [he, List.dropWhile_cons_of_neg (by simp [hp]), List.dropWhile_cons_of_neg (by simp [hp]), he]

theorem length_le_expandBytes (cs : List Char) : cs.length ≤ (expandBytes cs).length := by
  induction cs using expandBytes_induction with
  | nil => exact Nat.le_refl 0
  | bytes after hends ih =>
    rw [expandBytes_bytes hends, List.length_append, List.length_append]
    exact Nat.add_le_add (by decide) ih
  | keep c cs hkeep ih =>
    rw [expandBytes_keep hkeep]
    exact Nat.succ_le_succ ih

theorem expandBytes_eq_nil_iff : expandBytes cs = [] ↔ cs = [] := by
  refine ⟨fun h => ?_, fun h => by rw [h]; rfl⟩
  have hlen := length_le_expandBytes cs
  rw [h] at hlen
  exact List.length_eq_zero_iff.mp (Nat.le_zero.mp hlen)

theorem isEmpty_expandBytes (cs : List Char) : (expandBytes cs).isEmpty = cs.isEmpty := by
  rw [Bool.eq_iff_iff, List.isEmpty_iff, List.isEmpty_iff, expandBytes_eq_nil_iff]

/-- A text stays as it is exactly if no `:bytes` in it ends a word. -/
theorem expandBytes_eq_self_iff : expandBytes cs = cs ↔ ¬ HasBytes cs := by
  induction cs using expandBytes_induction with
  | nil =>
    refine iff_of_true rfl ?_
    rintro ⟨before, after, hcut, -⟩
    simp at hcut
  | bytes after hends ih =>
    refine iff_of_false (fun h => ?_) fun h => h ⟨[], after, rfl, hends⟩
    have hlen := congrArg List.length h
    have hle := length_le_expandBytes after
    rw [expandBytes_bytes hends, List.length_append, List.length_append] at hlen
    simp only [String.length_toList] at hlen
    have : ":vector<byte>".length = 13 ∧ ":bytes".length = 6 := by decide
    omega
  | keep c cs hkeep ih =>
    rw [expandBytes_keep hkeep, List.cons_inj_right, ih, not_iff_not]
    constructor
    · rintro ⟨before, after, rfl, hends⟩
      exact ⟨c :: before, after, rfl, hends⟩
    · rintro ⟨before, after, hcut, hends⟩
      cases before with
      | nil => exact absurd ⟨after, hcut, hends⟩ hkeep
      | cons d before =>
        obtain ⟨-, rfl⟩ := List.cons.inj hcut
        exact ⟨before, after, rfl, hends⟩

/-! ### Ends of a text -/

theorem expandBytes_append_blanks {blanks : List Char} (h : ∀ c ∈ blanks, isBlank c = true)
    (as : List Char) : expandBytes (as ++ blanks) = expandBytes as ++ blanks := by
  have hplain : expandBytes blanks = blanks := by
    induction blanks with
    | nil => rfl
    | cons c blanks ih =>
      obtain ⟨hc, hrest⟩ := List.forall_mem_cons.mp h
      rw [expandBytes_cons_of_ne (by rintro rfl; exact absurd hc (by decide)), ih hrest]
  cases blanks with
  | nil => rw [List.append_nil, List.append_nil]
  | cons c blanks =>
    have hc := h c List.mem_cons_self
    have hne : c ≠ ':' := by rintro rfl; exact absurd hc (by decide)
    rw [expandBytes_append_cons (not_isWordChar_of_isBlank hc) hne, ← expandBytes_cons_of_ne hne, hplain]

/-- What is written out at the end of a text does not end with a blank. -/
theorem getLast?_expandBytes_isBlank (h : ∀ c ∈ cs.getLast?, isBlank c = false) :
    ∀ c ∈ (expandBytes cs).getLast?, isBlank c = false := by
  induction cs using expandBytes_induction with
  | nil => simp [expandBytes]
  | bytes after hends ih =>
    rw [expandBytes_bytes hends, List.getLast?_append]
    cases hafter : (expandBytes after).getLast? with
    | none =>
      rintro c ⟨⟩
      decide
    | some d =>
      have hne : after ≠ [] := by
        rintro rfl
        cases hafter
      rw [List.getLast?_append, List.getLast?_eq_some_getLast hne, Option.some_or] at h
      rw [List.getLast?_eq_some_getLast hne, hafter] at ih
      exact ih h
  | keep c cs hkeep ih =>
    rw [expandBytes_keep hkeep]
    cases cs with
    | nil => exact h
    | cons d ds =>
      have hne : expandBytes (d :: ds) ≠ [] := by rw [Ne, expandBytes_eq_nil_iff]; simp
      rw [List.getLast?_cons_of_ne_nil hne]
      exact ih (by simpa using h)

theorem trimEnd_append_blanks {blanks : List Char} (h : ∀ c ∈ blanks, isBlank c = true)
    (as : List Char) : trimEnd (as ++ blanks) = trimEnd as := by
  rw [trimEnd, List.reverse_append, List.dropWhile_append_of_pos, trimEnd]
  exact fun c hc => h c (List.mem_reverse.mp hc)

theorem trimEnd_eq_self (h : ∀ c ∈ cs.getLast?, isBlank c = false) : trimEnd cs = cs := by
  refine List.rdropWhile_eq_self_iff.mpr fun hne => ?_
  rw [h _ (List.getLast?_eq_some_getLast hne)]
  exact Bool.false_ne_true

theorem trimEnd_expandBytes (cs : List Char) : trimEnd (expandBytes cs) = expandBytes (trimEnd cs) := by
  have hcut : trimEnd cs ++ cs.rtakeWhile isBlank = cs := List.rdropWhile_append_rtakeWhile
  have hblanks : ∀ c ∈ cs.rtakeWhile isBlank, isBlank c = true := fun c hc => List.mem_rtakeWhile_imp hc
  have hcore : ∀ c ∈ (trimEnd cs).getLast?, isBlank c = false := by
    intro c hc
    obtain ⟨hne, rfl⟩ := List.mem_getLast?_eq_getLast hc
    exact Bool.eq_false_iff.mpr (List.rdropWhile_last_not isBlank cs hne)
  calc trimEnd (expandBytes cs)
      = trimEnd (expandBytes (trimEnd cs) ++ cs.rtakeWhile isBlank) := by
        rw [← expandBytes_append_blanks hblanks, hcut]
    _ = trimEnd (expandBytes (trimEnd cs)) := trimEnd_append_blanks hblanks _
    _ = expandBytes (trimEnd cs) := trimEnd_eq_self (getLast?_expandBytes_isBlank hcore)

theorem trim_expandBytes (cs : List Char) : trim (expandBytes cs) = expandBytes (trim cs) := by
  rw [trim, trimStart_expandBytes, trimEnd_expandBytes, trim]

end Expand

/-! ### Documentation -/

theorem expandLine_ofList (cs : List Char) :
    expandLine (String.ofList cs) = String.ofList (expandBytes cs) := by
  rw [expandLine, String.toList_ofList]

theorem trimStart_expandLine (line : String) :
    trimStart (expandLine line).toList = expandBytes (trimStart line.toList) := by
  rw [expandLine, String.toList_ofList, trimStart_expandBytes]

namespace DocTags

/-- The tags with `bytes` written out in their texts. -/
def writtenOut (docs : DocTags) : DocTags := ⟨docs.tags.map fun t => (t.1, expandLine t.2)⟩

theorem get?_writtenOut (docs : DocTags) (key : String) :
    docs.writtenOut.get? key = (docs.get? key).map expandLine := by
  obtain ⟨tags⟩ := docs
  show (tags.map fun t => (t.1, expandLine t.2)).lookup (lower key) = _
  rw [get?]
  induction tags with
  | nil => rfl
  | cons t tags ih =>
    rw [List.map_cons, List.lookup_cons, List.lookup_cons]
    split
    · rfl
    · exact ih

section Tags
variable {cs seg : List Char}

theorem tag?_expandBytes (seg : List Char) :
    tag? (expandBytes seg) = (tag? seg).map fun t => (t.1, expandLine t.2) := by
  have hchar : isTagChar ':' = false := by decide
  unfold tag?
  rw [takeWhile_expandBytes_of_colon hchar, dropWhile_expandBytes_of_colon hchar]
  cases hrest : seg.dropWhile isTagChar with
  | nil => rfl
  | cons c rest =>
    by_cases hc : c = ' '
    · subst hc
      rw [expandBytes_cons_of_ne (by decide)]
      simp only [trim_expandBytes, isEmpty_expandBytes, ← expandLine_ofList]
      split <;> rfl
    · rcases expandBytes_cases c rest with he | ⟨rfl, ds, he⟩ <;> simp [he, hc]

theorem at_not_mem_expandBytes (h : '@' ∉ cs) : '@' ∉ expandBytes cs := by
  induction cs using expandBytes_induction with
  | nil => exact h
  | bytes after hends ih =>
    rw [List.mem_append, not_or] at h
    rw [expandBytes_bytes hends, List.mem_append, not_or]
    exact ⟨by decide, ih h.2⟩
  | keep c cs hkeep ih =>
    rw [List.mem_cons, not_or] at h
    rw [expandBytes_keep hkeep, List.mem_cons, not_or]
    exact ⟨h.1, ih h.2⟩

/-- The text up to the next tag. -/
theorem takeWhile_bne_expandBytes (cs : List Char) :
    (expandBytes cs).takeWhile (· != '@') = expandBytes (cs.takeWhile (· != '@')) := by
  have hcut := List.takeWhile_append_dropWhile (p := (· != '@')) (l := cs)
  have hat := at_not_mem_expandBytes (not_mem_takeWhile_bne '@' cs)
  cases hrest : cs.dropWhile (· != '@') with
  | nil =>
    rw [hrest, List.append_nil] at hcut
    rw [hcut] at hat ⊢
    rw [List.takeWhile_eq_self_iff]
    exact fun c hc => bne_iff_ne.mpr fun heq => hat (heq ▸ hc)
  | cons c rest =>
    obtain ⟨rfl, -⟩ := dropWhile_bne_eq_cons hrest
    rw [hrest] at hcut
    conv_lhs => rw [← hcut, expandBytes_append_cons (by decide +kernel) (by decide)]
    exact takeWhile_bne_append hat

theorem tagsIn_expandBytes (cs : List Char) :
    tagsIn (expandBytes cs) = (tagsIn cs).map fun t => (t.1, expandLine t.2) := by
  induction cs using expandBytes_induction with
  | nil => rfl
  | bytes after hends ih =>
    rw [expandBytes_bytes hends, tagsIn_append (by decide), tagsIn_append (by decide), ih]
  | keep c cs hkeep ih =>
    rw [expandBytes_keep hkeep]
    by_cases hc : c = '@'
    · subst hc
      rw [tagsIn_cons_at, tagsIn_cons_at, takeWhile_bne_expandBytes, tag?_expandBytes, ih, List.map_append]
      cases tag? (cs.takeWhile (· != '@')) <;> rfl
    · rw [tagsIn_cons_of_ne hc, tagsIn_cons_of_ne hc, ih]

theorem carriesOn_expandLine (line : String) : CarriesOn (expandLine line) ↔ CarriesOn line := by
  rw [CarriesOn, CarriesOn, trimStart_expandLine, prefix_expandBytes (by decide)]

theorem carryOn_writtenOut (docs : DocTags) (words : List Char) :
    docs.writtenOut.carryOn (expandBytes words) = (docs.carryOn words).writtenOut := by
  obtain ⟨tags⟩ := docs
  cases tags with
  | nil => rfl
  | cons t older =>
    obtain ⟨key, value⟩ := t
    have hjoin : expandLine (value ++ " " ++ String.ofList (trim words)) =
        expandLine value ++ " " ++ String.ofList (expandBytes (trim words)) := by
      rw [← String.toList_inj]
      simp only [expandLine, String.toList_append, String.toList_ofList, List.append_assoc]
      exact expandBytes_append_cons (not_isWordChar_of_isBlank (by decide)) (by decide) _ _
    unfold carryOn
    simp only [writtenOut, List.map_cons, trim_expandBytes, isEmpty_expandBytes]
    split
    · rfl
    · rw [← hjoin]
      rfl

theorem addLine_writtenOut (docs : DocTags) (line : String) :
    docs.writtenOut.addLine (expandLine line) = (docs.addLine line).writtenOut := by
  rw [addLine_eq, addLine_eq, tagsOf, tagsOf]
  by_cases h : CarriesOn line
  · rw [if_pos h, if_pos ((carriesOn_expandLine line).mpr h), ← carryOn_writtenOut]
    obtain ⟨words, hwords⟩ := h
    rw [trimStart_expandLine, ← hwords]
    show docs.writtenOut.carryOn ((expandBytes ('/' :: '/' :: '-' :: words)).drop 3) = _
    rw [expandBytes_cons_of_ne (by decide), expandBytes_cons_of_ne (by decide),
      expandBytes_cons_of_ne (by decide)]
    rfl
  · have h' := h ∘ (carriesOn_expandLine line).mp
    have htags : tagsIn (expandLine line).toList =
        (tagsIn line.toList).map fun t => (t.1, expandLine t.2) := by
      rw [expandLine, String.toList_ofList, tagsIn_expandBytes]
    rw [if_neg h, if_neg h', if_neg h, if_neg h', htags]
    simp [writtenOut]

theorem ofLines_expandLine (lines : List String) :
    ofLines (lines.map expandLine) = (ofLines lines).writtenOut := by
  have hfold (docs : DocTags) : (lines.map expandLine).foldl addLine docs.writtenOut =
      (lines.foldl addLine docs).writtenOut := by
    induction lines generalizing docs with
    | nil => rfl
    | cons l lines ih => rw [List.map_cons, List.foldl_cons, addLine_writtenOut, ih, List.foldl_cons]
  exact hfold {}

end Tags

end DocTags

/-- The documentation of a block in which `bytes` was written out. -/
theorem Block.docs_expand (b : Block) : b.expand.docs = b.docs.writtenOut := by
  rw [docs, docs, ← DocTags.ofLines_expandLine, expand, List.map_map, List.map_map]
  rfl

end TypeLang
