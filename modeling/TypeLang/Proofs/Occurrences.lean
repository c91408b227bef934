import TypeLang.Proofs.LineEnds

/-! # Occurrences of tags

What a block says under a tag, told from its lines alone. An `Occurrence` is a tag at its place in a row
of lines, and the `Stretch` behind it are the lines up to the next one. The text of a tag is the one at
its last occurrence, and goes on with the lines of the stretch that carry on (`get?_iff_last_occurrence`).

The tags of a line come one after the other (`tagsIn_eq`), so the places of a line and the entries that
are read from it match. Reading on behind an occurrence first leaves it the newest entry, to which the
stretch is added (`foldl_addLine_of_silent`), and then hides it behind others, where nothing is changed
any more (`lookup_foldl_addLine`). -/

namespace TypeLang.DocTags

open Text

/-- A tag in a line: between an `@` and the next one, or the end of the line, stand a name, a space and
a text that is not blank. -/
structure LineTag (line : List Char) where
  before : List Char
  name : List Char
  text : List Char
  after : List Char
  line_eq : line = before ++ '@' :: (name ++ ' ' :: text) ++ after
  name_ne : name ≠ []
  isTagChar : ∀ c ∈ name, isTagChar c = true
  at_not_mem : '@' ∉ text
  text_ne : trim text ≠ []
  after_eq : after = [] ∨ ∃ rest, after = '@' :: rest

/-- The line starts with two slashes and a dash. -/
def CarriesOn (line : String) : Prop := "//-".toList <+: trimStart line.toList

instance (line : String) : Decidable (CarriesOn line) := inferInstanceAs (Decidable (_ <+: _))

/-- A tag in one of several lines. Lines that carry on have none. -/
structure Occurrence (lines : List String) where
  above : List String
  line : String
  below : List String
  lines_eq : lines = above ++ line :: below
  reads : ¬ CarriesOn line
  tag : LineTag line.toList

namespace Occurrence
variable {lines : List String}

def row (o : Occurrence lines) : Nat := o.above.length

def column (o : Occurrence lines) : Nat := o.tag.before.length

/-- The name of the tag without its case. -/
def key (o : Occurrence lines) : String := lower (String.ofList o.tag.name)

/-- The one occurrence comes before the other, in an earlier line or further to the left. -/
def Precedes (o o' : Occurrence lines) : Prop :=
  o.row < o'.row ∨ o.row = o'.row ∧ o.column < o'.column

/-- `run` are the lines below an occurrence that come before the next one. -/
structure Stretch (o : Occurrence lines) (run : List String) : Prop where
  below : run <+: o.below
  silent : ∀ o', o.Precedes o' → ∀ i < run.length, o.row + 1 + i < o'.row
  next : run ≠ o.below → ∃ o', o.Precedes o' ∧ o'.row ≤ o.row + 1 + run.length

end Occurrence

/-- What a line that carries on has to add. -/
def carriedText? (line : String) : Option String :=
  if CarriesOn line ∧ trim ((trimStart line.toList).drop 3) ≠ [] then
    some (String.ofList (trim ((trimStart line.toList).drop 3)))
  else none

/-- The text of an occurrence and of the lines that carry it on, with spaces between them. -/
def Occurrence.fullText {lines : List String} (o : Occurrence lines) (run : List String) : String :=
  " ".intercalate (String.ofList (trim o.tag.text) :: run.filterMap carriedText?)

/-! ### Tags of a line -/

section Segments
variable {cs seg : List Char} {c : Char} {t : String × String}

theorem tag?_eq_some_iff : tag? seg = some t ↔
    ∃ name text, seg = name ++ ' ' :: text ∧ name ≠ [] ∧ (∀ c ∈ name, isTagChar c = true) ∧
      trim text ≠ [] ∧ t = (lower (String.ofList name), String.ofList (trim text)) := by
  constructor
  · intro h
    simp only [tag?] at h
    split at h
    next rest hrest =>
      have hseg := List.takeWhile_append_dropWhile (p := isTagChar) (l := seg)
      rw [hrest] at hseg
      split at h
      · cases h
      next hne =>
        simp only [Bool.or_eq_true, List.isEmpty_iff, not_or] at hne
        refine ⟨_, rest, hseg.symm, hne.1, fun c hc => List.mem_takeWhile_imp hc, hne.2, ?_⟩
        exact (Option.some.inj h).symm
    · cases h
  · rintro ⟨name, text, rfl, hne, hname, htext, rfl⟩
    have hspace : isTagChar ' ' = false := by decide
    have htake : (name ++ ' ' :: text).takeWhile isTagChar = name := by
      rw [List.takeWhile_append_of_pos hname, List.takeWhile_cons, hspace]
      simp
    have hdrop : (name ++ ' ' :: text).dropWhile isTagChar = ' ' :: text := by
      rw [List.dropWhile_append_of_pos hname, List.dropWhile_cons, hspace]
      simp
    simp [tag?, htake, hdrop, hne, htext]

theorem splitOnP_eq_takeWhile_cons (cs : List Char) : cs.splitOnP (· == '@') =
    cs.takeWhile (· != '@') :: (cs.splitOnP (· == '@')).drop 1 := by
  induction cs with
  | nil => rfl
  | cons c cs ih =>
    rw [List.splitOnP_cons_eq_if_modifyHead, List.takeWhile_cons]
    by_cases hc : c = '@'
    · simp [hc]
    · rw [ih]
      simp [hc]

theorem tagsIn_cons_at (cs : List Char) :
    tagsIn ('@' :: cs) = (tag? (cs.takeWhile (· != '@'))).toList ++ tagsIn cs := by
  have hcut : ('@' :: cs).splitOnP (· == '@') = [] :: cs.splitOnP (· == '@') := by
    rw [List.splitOnP_cons_eq_if_modifyHead]
    rfl
  rw [tagsIn, hcut, List.drop_one, List.tail_cons, splitOnP_eq_takeWhile_cons, List.filterMap_cons]
  cases tag? (cs.takeWhile (· != '@')) <;> rfl

theorem tagsIn_cons_of_ne (hc : c ≠ '@') (cs : List Char) : tagsIn (c :: cs) = tagsIn cs := by
  rw [tagsIn, List.splitOnP_cons_eq_if_modifyHead, if_neg (by simpa using hc),
    splitOnP_eq_takeWhile_cons cs, tagsIn]
  simp

theorem tagsIn_append (hseg : '@' ∉ seg) (cs : List Char) : tagsIn (seg ++ cs) = tagsIn cs := by
  induction seg with
  | nil => rfl
  | cons c seg ih =>
    rw [List.mem_cons, not_or] at hseg
    rw [List.cons_append, tagsIn_cons_of_ne (Ne.symm hseg.1), ih hseg.2]

theorem tagsIn_segment {after : List Char} (hseg : '@' ∉ seg)
    (hafter : after = [] ∨ ∃ rest, after = '@' :: rest) :
    tagsIn ('@' :: (seg ++ after)) = (tag? seg).toList ++ tagsIn after := by
  have htake : (seg ++ after).takeWhile (· != '@') = seg := by
    rcases hafter with rfl | ⟨rest, rfl⟩
    · rw [List.append_nil, List.takeWhile_eq_self_iff]
      intro c hc
      exact bne_iff_ne.mpr fun heq => hseg (heq ▸ hc)
    · exact takeWhile_bne_append hseg
  rw [tagsIn_cons_at, htake, tagsIn_append hseg]

theorem tagsIn_suffix (before cs : List Char) : tagsIn cs <:+ tagsIn (before ++ cs) := by
  induction before with
  | nil => exact List.suffix_refl _
  | cons c before ih =>
    rw [List.cons_append]
    by_cases hc : c = '@'
    · rw [hc, tagsIn_cons_at]
      exact ih.trans (List.suffix_append _ _)
    · rwa [tagsIn_cons_of_ne hc]

end Segments

namespace LineTag
variable {line cs : List Char}

/-- What is kept of the tag. -/
def entry (t : LineTag line) : String × String :=
  (lower (String.ofList t.name), String.ofList (trim t.text))

/-- The tag with more in front of it. -/
def shift (t : LineTag cs) (pre : List Char) (h : line = pre ++ cs) : LineTag line where
  before := pre ++ t.before
  name := t.name
  text := t.text
  after := t.after
  line_eq := by
    rw [h]
    conv_lhs => rw [t.line_eq]
    simp
  name_ne := t.name_ne
  isTagChar := t.isTagChar
  at_not_mem := t.at_not_mem
  text_ne := t.text_ne
  after_eq := t.after_eq

theorem at_not_mem_segment (t : LineTag line) : '@' ∉ t.name ++ ' ' :: t.text := by
  rw [List.mem_append, List.mem_cons]
  rintro (h | h | h)
  · exact absurd (t.isTagChar _ h) (by decide)
  · cases h
  · exact t.at_not_mem h

theorem line_eq_cons (t : LineTag line) :
    line = t.before ++ '@' :: ((t.name ++ ' ' :: t.text) ++ t.after) := by
  conv_lhs => rw [t.line_eq]
  simp

theorem tagsIn_segment_eq (t : LineTag line) :
    tagsIn ('@' :: ((t.name ++ ' ' :: t.text) ++ t.after)) = t.entry :: tagsIn t.after := by
  have htag : tag? (t.name ++ ' ' :: t.text) = some t.entry :=
    tag?_eq_some_iff.mpr ⟨_, _, rfl, t.name_ne, t.isTagChar, t.text_ne, rfl⟩
  rw [tagsIn_segment t.at_not_mem_segment t.after_eq, htag, Option.toList_some, List.singleton_append]

/-- The entry of a tag is among those of its line, in front of those of the rest. -/
theorem tagsIn_eq (t : LineTag line) : ∃ older, tagsIn line = older ++ t.entry :: tagsIn t.after := by
  obtain ⟨older, holder⟩ := tagsIn_suffix t.before ('@' :: ((t.name ++ ' ' :: t.text) ++ t.after))
  rw [← t.line_eq_cons, t.tagsIn_segment_eq] at holder
  exact ⟨older, holder.symm⟩

theorem exists_of_mem_tagsIn {e : String × String} (h : e ∈ tagsIn cs) :
    ∃ t : LineTag cs, t.entry = e := by
  induction cs with
  | nil => cases h
  | cons c cs ih =>
    by_cases hc : c = '@'
    · subst hc
      rw [tagsIn_cons_at, List.mem_append, Option.mem_toList] at h
      rcases h with h | h
      · obtain ⟨name, text, hseg, hne, hname, htext, rfl⟩ := tag?_eq_some_iff.mp h
        have hcut := List.takeWhile_append_dropWhile (p := (· != '@')) (l := cs)
        have hat := not_mem_takeWhile_bne '@' cs
        rw [hseg] at hcut hat
        refine ⟨⟨[], name, text, cs.dropWhile (· != '@'), ?_, hne, hname, ?_, htext, ?_⟩, rfl⟩
        · rw [List.nil_append, List.cons_append, hcut]
        · intro hmem
          exact hat (List.mem_append_right _ (List.mem_cons_of_mem _ hmem))
        · cases hdrop : cs.dropWhile (· != '@') with
          | nil => exact .inl rfl
          | cons d ds => exact .inr ⟨ds, by rw [(dropWhile_bne_eq_cons hdrop).1]⟩
      · obtain ⟨t, rfl⟩ := ih h
        exact ⟨t.shift ['@'] rfl, rfl⟩
    · rw [tagsIn_cons_of_ne hc] at h
      obtain ⟨t, rfl⟩ := ih h
      exact ⟨t.shift [c] rfl, rfl⟩

/-- A tag further to the right lies in what comes after. -/
theorem tagsIn_after_ne {line' : List Char} {t : LineTag line} {t' : LineTag line'}
    (hline : line = line') (h : t.before.length < t'.before.length) : tagsIn t.after ≠ [] := by
  subst hline
  obtain ⟨z, hz⟩ : ∃ z, t.after = z ++ '@' :: ((t'.name ++ ' ' :: t'.text) ++ t'.after) := by
    have heq := t.line_eq_cons.symm.trans t'.line_eq_cons
    rcases List.append_eq_append_iff.mp heq with ⟨x, hx, hrest⟩ | ⟨x, hx, -⟩
    · cases x with
      | nil =>
        rw [hx, List.append_nil] at h
        omega
      | cons c x =>
        obtain ⟨-, hrest⟩ := List.cons.inj hrest
        rcases List.append_eq_append_iff.mp hrest with ⟨z, -, hz⟩ | ⟨z, hseg, hz⟩
        · exact ⟨z, hz⟩
        · cases z with
          | nil => exact ⟨[], hz.symm⟩
          | cons c z =>
            -- the `@` of the one tag would stand in the text of the other
            obtain ⟨rfl, -⟩ := List.cons.inj hz
            exact absurd (by rw [hseg]; simp) t.at_not_mem_segment
    · rw [hx, List.length_append] at h
      omega
  have hsuffix := tagsIn_suffix z ('@' :: ((t'.name ++ ' ' :: t'.text) ++ t'.after))
  rw [← hz, t'.tagsIn_segment_eq] at hsuffix
  intro hnil
  rw [hnil, List.suffix_nil] at hsuffix
  cases hsuffix

end LineTag

/-! ### Reading lines -/

/-- The entries that a line adds. -/
def tagsOf (line : String) : List (String × String) :=
  if CarriesOn line then [] else tagsIn line.toList

section Lines
variable {docs : DocTags} {line k v : String} {older : List (String × String)} {lines : List String}

theorem carried?_eq (line : String) : carried? line.toList =
    if CarriesOn line then some ((trimStart line.toList).drop 3) else none := by
  split
  next h =>
    obtain ⟨words, hwords⟩ := h
    rw [carried?_eq_some_iff, ← hwords]
    rfl
  next h =>
    cases hc : carried? line.toList with
    | none => rfl
    | some words => exact absurd ⟨words, (carried?_eq_some_iff.mp hc).symm⟩ h

theorem foldl_push (ts : List (String × String)) (docs : DocTags) :
    ts.foldl push docs = ⟨ts.reverse ++ docs.tags⟩ := by
  induction ts generalizing docs with
  | nil => rfl
  | cons t ts ih => simp [ih, push]

theorem addLine_eq (docs : DocTags) (line : String) : docs.addLine line =
    if CarriesOn line then docs.carryOn ((trimStart line.toList).drop 3)
    else ⟨(tagsOf line).reverse ++ docs.tags⟩ := by
  rw [addLine, carried?_eq, tagsOf]
  by_cases h : CarriesOn line
  · simp only [if_pos h]
  · simp only [if_neg h, foldl_push]

/-- A line without tags at most adds to the newest text. -/
theorem addLine_of_silent (h : tagsOf line = []) : addLine ⟨(k, v) :: older⟩ line =
    ⟨(k, " ".intercalate (v :: (carriedText? line).toList)) :: older⟩ := by
  rw [addLine_eq, h, carriedText?]
  by_cases hc : CarriesOn line
  · by_cases hw : trim ((trimStart line.toList).drop 3) = []
    · simp [hc, hw, carryOn]
    · simp [hc, hw, carryOn]
  · simp [hc]

theorem foldl_addLine_of_silent {run : List String} (h : ∀ l ∈ run, tagsOf l = []) :
    run.foldl addLine ⟨(k, v) :: older⟩ =
      ⟨(k, " ".intercalate (v :: run.filterMap carriedText?)) :: older⟩ := by
  induction run generalizing v with
  | nil => rfl
  | cons l run ih =>
    obtain ⟨hl, hrun⟩ := List.forall_mem_cons.mp h
    rw [List.foldl_cons, addLine_of_silent hl, ih hrun, List.filterMap_cons]
    cases carriedText? l <;> rfl

/-- The newest entry has another key. -/
def Hidden (k : String) (docs : DocTags) : Prop := ∀ t ∈ docs.tags.head?, t.1 ≠ k

theorem lookup_reverse_append {ts older : List (String × String)} (h : ∀ t ∈ ts, t.1 ≠ k) :
    (ts.reverse ++ older).lookup k = older.lookup k := by
  have hnone : ts.reverse.lookup k = none := by
    rw [List.lookup_eq_none_iff]
    intro t ht
    simpa using (h t (List.mem_reverse.mp ht)).symm
  rw [List.lookup_append, hnone, Option.none_or]

theorem hidden_reverse_append {ts older : List (String × String)} (h : ∀ t ∈ ts, t.1 ≠ k)
    (hold : Hidden k ⟨older⟩ ∨ ts ≠ []) : Hidden k ⟨ts.reverse ++ older⟩ := by
  intro t ht
  rw [List.head?_append] at ht
  cases hts : ts.reverse.head? with
  | none =>
    rw [hts, Option.none_or] at ht
    rw [List.head?_eq_none_iff, List.reverse_eq_nil_iff] at hts
    exact (hold.resolve_right fun hne => hne hts) t ht
  | some u =>
    rw [hts, Option.some_or, Option.mem_some_iff] at ht
    exact h t (List.mem_reverse.mp (List.mem_of_mem_head? (by rw [hts, ht]; rfl)))

/-- A line that has no tag of this key leaves its text alone, unless it carries it on. -/
theorem lookup_addLine (docs : DocTags) (hk : ∀ t ∈ tagsOf line, t.1 ≠ k)
    (hnew : Hidden k docs ∨ tagsOf line ≠ []) :
    (docs.addLine line).tags.lookup k = docs.tags.lookup k ∧ Hidden k (docs.addLine line) := by
  rw [addLine_eq]
  split
  next hc =>
    have hdocs : Hidden k docs := hnew.resolve_right fun hne => hne (if_pos hc)
    unfold carryOn
    split
    · exact ⟨rfl, hdocs⟩
    next key value older htags =>
      have hne : key ≠ k := hdocs (key, value) (by rw [htags]; rfl)
      split
      · exact ⟨rfl, hdocs⟩
      · refine ⟨?_, fun t ht => ?_⟩
        · rw [htags, List.lookup_cons, List.lookup_cons, beq_eq_false_iff_ne.mpr hne.symm]
        · cases ht
          exact hne
  next => exact ⟨lookup_reverse_append hk, hidden_reverse_append hk hnew⟩

theorem lookup_foldl_addLine (hk : ∀ l ∈ lines, ∀ t ∈ tagsOf l, t.1 ≠ k) (hnew : Hidden k docs) :
    (lines.foldl addLine docs).tags.lookup k = docs.tags.lookup k := by
  induction lines generalizing docs with
  | nil => rfl
  | cons l lines ih =>
    obtain ⟨hl, hlines⟩ := List.forall_mem_cons.mp hk
    obtain ⟨hlookup, hhidden⟩ := lookup_addLine docs hl (.inl hnew)
    rw [List.foldl_cons, ih hlines hhidden, hlookup]

end Lines

/-! ### Places -/

namespace Occurrence
variable {lines : List String} {o o' : Occurrence lines} {run : List String}

theorem getElem?_row (o : Occurrence lines) : lines[o.row]? = some o.line := by
  obtain ⟨above, line, below, rfl, hreads, t⟩ := o
  simp [row]

theorem getElem?_below (o : Occurrence lines) (i : Nat) : lines[o.row + 1 + i]? = o.below[i]? := by
  obtain ⟨above, line, below, rfl, hreads, t⟩ := o
  simp only [row]
  rw [List.getElem?_append_right (by omega)]
  have hi : above.length + 1 + i - above.length = i + 1 := by omega
  rw [hi, List.getElem?_cons_succ]

theorem row_lt (o : Occurrence lines) : o.row < lines.length :=
  (List.getElem?_eq_some_iff.mp o.getElem?_row).1

theorem column_lt (o : Occurrence lines) : o.column < o.line.toList.length := by
  rw [o.tag.line_eq_cons, List.length_append, List.length_cons, column]
  omega

theorem line_eq_of_row_eq (h : o.row = o'.row) : o.line = o'.line := by
  have hline := o.getElem?_row
  rw [h, o'.getElem?_row] at hline
  exact (Option.some.inj hline).symm

theorem tagsOf_line (o : Occurrence lines) :
    ∃ older, tagsOf o.line = older ++ o.tag.entry :: tagsIn o.tag.after := by
  rw [tagsOf, if_neg o.reads]
  exact o.tag.tagsIn_eq

theorem exists_of_mem_tagsOf {above below : List String} {line : String} {e : String × String}
    (hlines : lines = above ++ line :: below) (he : e ∈ tagsOf line) :
    ∃ o : Occurrence lines, o.row = above.length ∧ o.tag.entry = e := by
  rw [tagsOf] at he
  split at he
  · cases he
  next hreads =>
    obtain ⟨t, ht⟩ := LineTag.exists_of_mem_tagsIn he
    exact ⟨⟨above, line, below, hlines, hreads, t⟩, rfl, ht⟩

/-- What is read behind an occurrence in its line belongs to a later one. -/
theorem exists_of_mem_after {e : String × String} (o : Occurrence lines) (he : e ∈ tagsIn o.tag.after) :
    ∃ o', o.Precedes o' ∧ o'.row = o.row ∧ o'.tag.entry = e := by
  obtain ⟨t, ht⟩ := LineTag.exists_of_mem_tagsIn he
  refine ⟨⟨o.above, o.line, o.below, o.lines_eq, o.reads, t.shift _ o.tag.line_eq⟩, .inr ⟨rfl, ?_⟩,
    rfl, ht⟩
  simp only [column, LineTag.shift, List.length_append, List.length_cons]
  omega

/-- What is read below an occurrence belongs to a later one. -/
theorem exists_of_mem_below {e : String × String} {run rest : List String} {line : String}
    (o : Occurrence lines) (hbelow : o.below = run ++ line :: rest) (he : e ∈ tagsOf line) :
    ∃ o', o.Precedes o' ∧ o'.row = o.row + 1 + run.length ∧ o'.tag.entry = e := by
  have hlines : lines = (o.above ++ o.line :: run) ++ line :: rest := by
    conv_lhs => rw [o.lines_eq, hbelow]
    simp
  obtain ⟨o', hrow, hentry⟩ := exists_of_mem_tagsOf hlines he
  have hrow' : o'.row = o.row + 1 + run.length := by
    rw [hrow, List.length_append, List.length_cons, row]
    omega
  exact ⟨o', .inl (by omega), hrow', hentry⟩

theorem exists_last {P : Occurrence lines → Prop} (o : Occurrence lines) (ho : P o) :
    ∃ o', P o' ∧ ∀ o'', o'.Precedes o'' → ¬ P o'' := by
  by_cases h : ∃ o', o.Precedes o' ∧ P o'
  · obtain ⟨o', hlt, ho'⟩ := h
    exact exists_last o' ho'
  · exact ⟨o, ho, fun o'' hlt hp => h ⟨o'', hlt, hp⟩⟩
termination_by (lines.length - o.row, o.line.toList.length - o.column)
decreasing_by
  have hrow := o'.row_lt
  have hcolumn := o'.column_lt
  rw [Prod.lex_def]
  rcases hlt with hlt | ⟨heq, hlt⟩
  · left
    show lines.length - o'.row < lines.length - o.row
    omega
  · right
    rw [line_eq_of_row_eq heq, heq]
    refine ⟨rfl, ?_⟩
    show o'.line.toList.length - o'.column < o'.line.toList.length - o.column
    omega

/-! ### Stretches -/

/-- The lines below an occurrence up to the next line with tags. -/
def stretch (o : Occurrence lines) : List String :=
  if tagsIn o.tag.after = [] then o.below.takeWhile fun l => (tagsOf l).isEmpty else []

theorem Stretch.length_le {run' : List String} (h : o.Stretch run) (h' : o.Stretch run') :
    run'.length ≤ run.length := by
  by_contra hlt
  have hne : run ≠ o.below := by
    rintro rfl
    exact hlt h'.below.length_le
  -- the line behind the shorter one is not before the next occurrence, and so not in the longer one
  obtain ⟨o', hprec, hrow⟩ := h.next hne
  have hsilent := h'.silent o' hprec run.length (by omega)
  omega

theorem Stretch.unique {run' : List String} (h : o.Stretch run) (h' : o.Stretch run') : run = run' := by
  have hlength : run.length = run'.length := Nat.le_antisymm (h'.length_le h) (h.length_le h')
  exact (List.prefix_of_prefix_length_le h.below h'.below hlength.le).eq_of_length hlength

theorem stretch_prefix (o : Occurrence lines) : o.stretch <+: o.below := by
  unfold stretch
  split
  · exact List.takeWhile_prefix _
  · exact List.nil_prefix

theorem tagsOf_of_mem_stretch {l : String} (h : l ∈ o.stretch) : tagsOf l = [] := by
  unfold stretch at h
  split at h
  · simpa using List.mem_takeWhile_imp h
  · cases h

/-- What ends a stretch: a tag in the same line, a line with tags, or the end of the block. -/
theorem stretch_cases (o : Occurrence lines) :
    (tagsIn o.tag.after ≠ [] ∧ o.stretch = []) ∨
    (tagsIn o.tag.after = [] ∧
      (o.below = o.stretch ∨ ∃ l rest, o.below = o.stretch ++ l :: rest ∧ tagsOf l ≠ [])) := by
  unfold stretch
  split
  next hafter =>
    refine .inr ⟨hafter, ?_⟩
    have hcut := List.takeWhile_append_dropWhile (p := fun l => (tagsOf l).isEmpty) (l := o.below)
    cases hdrop : o.below.dropWhile fun l => (tagsOf l).isEmpty with
    | nil =>
      rw [hdrop, List.append_nil] at hcut
      exact .inl hcut.symm
    | cons l rest =>
      rw [hdrop] at hcut
      have hl := List.head?_dropWhile_not (fun l => (tagsOf l).isEmpty) o.below
      rw [hdrop] at hl
      exact .inr ⟨l, rest, hcut.symm, by simpa using hl⟩
  next hafter => exact .inl ⟨hafter, rfl⟩

theorem stretch_stretch (o : Occurrence lines) : o.Stretch o.stretch where
  below := o.stretch_prefix
  silent o' hprec i hi := by
    by_contra hrow
    rcases hprec with hlt | ⟨heq, hlt⟩
    · -- the later occurrence would be in a line of the stretch
      obtain ⟨j, hj⟩ : ∃ j, o'.row = o.row + 1 + j := ⟨o'.row - (o.row + 1), by omega⟩
      have hline := o.getElem?_below j
      rw [← hj, o'.getElem?_row, List.prefix_iff_getElem?.mp o.stretch_prefix j (by omega)] at hline
      have hsilent := tagsOf_of_mem_stretch (o := o) (List.getElem_mem (n := j) (by omega))
      obtain ⟨older, htags⟩ := o'.tagsOf_line
      rw [← Option.some.inj hline, htags] at hsilent
      simp at hsilent
    · have hafter := LineTag.tagsIn_after_ne (by rw [line_eq_of_row_eq heq]) hlt
      rw [stretch, if_neg hafter] at hi
      cases hi
  next hne := by
    rcases o.stretch_cases with ⟨hafter, hnil⟩ | ⟨-, hall | ⟨l, rest, hbelow, hl⟩⟩
    · obtain ⟨e, he⟩ := List.exists_mem_of_ne_nil _ hafter
      obtain ⟨o', hprec, hrow, -⟩ := o.exists_of_mem_after he
      exact ⟨o', hprec, by omega⟩
    · exact absurd hall.symm hne
    · obtain ⟨e, he⟩ := List.exists_mem_of_ne_nil _ hl
      obtain ⟨o', hprec, hrow, -⟩ := o.exists_of_mem_below hbelow he
      exact ⟨o', hprec, hrow.le⟩

/-! ### The last occurrence -/

/-- Entries behind an occurrence have another key if all later occurrences have. -/
theorem ne_key_of_last (hlast : ∀ o', o.Precedes o' → o'.key ≠ o.key) :
    (∀ e ∈ tagsIn o.tag.after, e.1 ≠ o.key) ∧ ∀ l ∈ o.below, ∀ e ∈ tagsOf l, e.1 ≠ o.key := by
  constructor
  · intro e he
    obtain ⟨o', hprec, -, rfl⟩ := o.exists_of_mem_after he
    exact hlast o' hprec
  · intro l hl e he
    obtain ⟨run, rest, hbelow⟩ := List.append_of_mem hl
    obtain ⟨o', hprec, -, rfl⟩ := o.exists_of_mem_below hbelow he
    exact hlast o' hprec

/-- The entry of an occurrence is the newest once the tags in front of it are read. -/
theorem exists_ofLines_eq (o : Occurrence lines) : ∃ older, ofLines lines =
    o.below.foldl addLine ⟨(tagsIn o.tag.after).reverse ++ o.tag.entry :: older⟩ := by
  obtain ⟨before, htags⟩ := o.tagsOf_line
  refine ⟨before.reverse ++ (ofLines o.above).tags, ?_⟩
  have hline : (ofLines o.above).addLine o.line =
      ⟨(tagsIn o.tag.after).reverse ++ o.tag.entry :: (before.reverse ++ (ofLines o.above).tags)⟩ := by
    rw [addLine_eq, if_neg o.reads, htags]
    simp
  rw [← hline]
  conv_lhs => rw [ofLines, o.lines_eq, List.foldl_append, List.foldl_cons]
  rfl

theorem lookup_of_last (hlast : ∀ o', o.Precedes o' → o'.key ≠ o.key) :
    (ofLines lines).tags.lookup o.key = some (o.fullText o.stretch) := by
  obtain ⟨hafter, hbelow⟩ := ne_key_of_last hlast
  obtain ⟨older, hdocs⟩ := o.exists_ofLines_eq
  rw [hdocs]
  rcases o.stretch_cases with ⟨htags, hnil⟩ | ⟨htags, hend⟩
  · -- another tag of the same line is newer at once
    rw [lookup_foldl_addLine hbelow (hidden_reverse_append hafter (.inr htags)),
      lookup_reverse_append hafter, hnil]
    exact List.lookup_cons_self
  · have hrun : o.stretch.foldl addLine ⟨o.tag.entry :: older⟩ =
        ⟨(o.key, o.fullText o.stretch) :: older⟩ :=
      foldl_addLine_of_silent fun l hl => tagsOf_of_mem_stretch hl
    rw [htags, List.reverse_nil, List.nil_append]
    rcases hend with hall | ⟨l, rest, hcut, hl⟩
    · rw [hall, hrun]
      exact List.lookup_cons_self
    · rw [hcut] at hbelow
      obtain ⟨hlookup, hhidden⟩ := lookup_addLine ⟨(o.key, o.fullText o.stretch) :: older⟩
        (hbelow l (by simp)) (.inr hl)
      rw [hcut, List.foldl_append, hrun, List.foldl_cons,
        lookup_foldl_addLine (fun x hx => hbelow x (by simp [hx])) hhidden, hlookup]
      exact List.lookup_cons_self

theorem get?_of_last {key : String} (hkey : o.key = lower key)
    (hlast : ∀ o', o.Precedes o' → o'.key ≠ lower key) :
    (ofLines lines).get? key = some (o.fullText o.stretch) := by
  rw [get?, ← hkey]
  exact lookup_of_last fun o' hprec => hkey ▸ hlast o' hprec

end Occurrence

theorem get?_eq_none {lines : List String} {key : String}
    (h : ∀ o : Occurrence lines, o.key ≠ lower key) : (ofLines lines).get? key = none := by
  have hk : ∀ l ∈ lines, ∀ e ∈ tagsOf l, e.1 ≠ lower key := by
    intro l hl e he
    obtain ⟨above, below, hlines⟩ := List.append_of_mem hl
    obtain ⟨o, -, rfl⟩ := Occurrence.exists_of_mem_tagsOf hlines he
    exact h o
  exact lookup_foldl_addLine hk fun t ht => by cases ht

/-- The text under a key in a block is that of the last occurrence of the tag, and of the lines that
carry it on before the next tag of any name. Without an occurrence there is none. -/
theorem get?_iff_last_occurrence (b : Block) (key : String) :
    (b.docs.get? key = none ↔ ∀ o : Occurrence (b.lines.map (·.text)), o.key ≠ lower key) ∧
    ∀ text, b.docs.get? key = some text ↔
      ∃ (o : Occurrence (b.lines.map (·.text))) (run : List String), o.key = lower key ∧
        (∀ o', o.Precedes o' → o'.key ≠ lower key) ∧ o.Stretch run ∧ text = o.fullText run := by
  have hsome : ∀ o : Occurrence (b.lines.map (·.text)), o.key = lower key →
      ∃ o' : Occurrence (b.lines.map (·.text)), o'.key = lower key ∧
        (∀ o'', o'.Precedes o'' → o''.key ≠ lower key) ∧
        b.docs.get? key = some (o'.fullText o'.stretch) := by
    intro o ho
    obtain ⟨o', hkey, hlast⟩ := Occurrence.exists_last (P := (·.key = lower key)) o ho
    exact ⟨o', hkey, hlast, Occurrence.get?_of_last hkey hlast⟩
  refine ⟨⟨fun hnone o ho => ?_, get?_eq_none⟩, fun text => ⟨fun htext => ?_, ?_⟩⟩
  · obtain ⟨o', -, -, htext⟩ := hsome o ho
    rw [hnone] at htext
    cases htext
  · by_cases h : ∃ o : Occurrence (b.lines.map (·.text)), o.key = lower key
    · obtain ⟨o, ho⟩ := h
      obtain ⟨o', hkey, hlast, hfull⟩ := hsome o ho
      rw [htext] at hfull
      exact ⟨o', o'.stretch, hkey, hlast, o'.stretch_stretch, Option.some.inj hfull⟩
    · have hnone : b.docs.get? key = none := get?_eq_none fun o ho => h ⟨o, ho⟩
      rw [hnone] at htext
      cases htext
  · rintro ⟨o, run, hkey, hlast, hrun, rfl⟩
    rw [hrun.unique o.stretch_stretch]
    exact Occurrence.get?_of_last hkey hlast

-- the second tag is empty, so that the line below it still belongs to the first
example : (ofLines ["//@Id one @id  @", "  //- two ", "//-", "id = A; // @x y"]).get? "ID" =
    some "one two" := by decide +kernel

end TypeLang.DocTags
