import Mathlib.Data.List.DropRight
import TypeLang.Proofs.Lenient

/-! # Blocks and their declaration lines

Blank lines cut a text into blocks, and a block has one declaration line: the first that is not a
comment. `group_around` finds the block of a given line, with the numbers in the blocks before and
after it on either side of its own. Writing `bytes` out neither makes nor unmakes a comment or the
declaration of a scalar, so both may be asked of the line as it stands in the text. From these,
`declarations_of_strict` says which lines a schema that is read without an error declares something
by. -/

namespace TypeLang

open Text

/-! ### Writing bytes out -/

/-- Only a colon starts what is written out, and the colon itself stays. -/
theorem expandBytes_cases (c : Char) (cs : List Char) :
    expandBytes (c :: cs) = c :: expandBytes cs ∨
      c = ':' ∧ ∃ ds, expandBytes (c :: cs) = ':' :: ds := by
  generalize h : c :: cs = ds
  fun_cases expandBytes ds with
  | case1 => cases h
  | case2 ds =>
    obtain ⟨rfl, -⟩ := List.cons.inj h
    refine .inr ⟨rfl, ?_⟩
    split <;> exact ⟨_, rfl⟩
  | case3 d ds =>
    obtain ⟨rfl, rfl⟩ := List.cons.inj h
    exact .inl rfl

theorem trimStart_expandBytes (cs : List Char) :
    trimStart (expandBytes cs) = expandBytes (trimStart cs) := by
  unfold trimStart
  induction cs with
  | nil => rfl
  | cons c cs ih =>
    rcases expandBytes_cases c cs with he | ⟨rfl, ds, he⟩
    · rw [he, List.dropWhile_cons, List.dropWhile_cons]
      split
      · exact ih
      · exact he.symm
    · rw [he, List.dropWhile_cons_of_neg (by decide), List.dropWhile_cons_of_neg (by decide), he]

theorem prefix_expandBytes {w : List Char} (hw : ':' ∉ w) (cs : List Char) :
    w <+: expandBytes cs ↔ w <+: cs := by
  induction w generalizing cs with
  | nil => simp
  | cons d w ih =>
    obtain ⟨hd, hw⟩ : ':' ≠ d ∧ ':' ∉ w := by simpa using hw
    cases cs with
    | nil => rfl
    | cons c cs =>
      rcases expandBytes_cases c cs with he | ⟨rfl, ds, he⟩
      · rw [he, List.cons_prefix_cons, List.cons_prefix_cons, ih hw]
      · simp [he, List.cons_prefix_cons, hd.symm]

theorem takeWhile_expandBytes {w : List Char} (hw : ':' ∉ w) (cs : List Char) :
    (expandBytes cs).takeWhile (!isBlank ·) = w ↔ cs.takeWhile (!isBlank ·) = w := by
  have hcolon : isBlank ':' = false := by decide
  induction w generalizing cs with
  | nil =>
    cases cs with
    | nil => rfl
    | cons c cs => rcases expandBytes_cases c cs with he | ⟨rfl, ds, he⟩ <;> simp [he]
  | cons d w ih =>
    obtain ⟨hd, hw⟩ : ':' ≠ d ∧ ':' ∉ w := by simpa using hw
    cases cs with
    | nil => rfl
    | cons c cs =>
      rcases expandBytes_cases c cs with he | ⟨rfl, ds, he⟩
      · rw [he, List.takeWhile_cons, List.takeWhile_cons]
        split
        · simp only [List.cons.injEq, ih hw]
        · rfl
      · simp [he, hcolon, hd]

theorem isComment_iff {l : String} : isComment l = true ↔
    "//".toList <+: trimStart l.toList ∨ "---".toList <+: trimStart l.toList := by
  unfold isComment
  split
  next cs h => simp [h]
  next cs h => simp [h]
  next h₁ h₂ =>
    refine ⟨fun h => (by cases h), fun h => ?_⟩
    rcases h with ⟨cs, h⟩ | ⟨cs, h⟩
    · exact absurd h.symm (h₁ cs)
    · exact absurd h.symm (h₂ cs)

theorem isComment_expandLine (l : String) : isComment (expandLine l) = isComment l := by
  have htrim : trimStart (expandLine l).toList = expandBytes (trimStart l.toList) := by
    rw [expandLine, String.toList_ofList, trimStart_expandBytes]
  rw [Bool.eq_iff_iff, isComment_iff, isComment_iff, htrim, prefix_expandBytes (by decide),
    prefix_expandBytes (by decide)]

theorem firstWord_expandLine {w : String} (hw : ':' ∉ w.toList) (l : String) :
    firstWord (expandLine l) = w ↔ firstWord l = w := by
  unfold firstWord expandLine
  rw [String.toList_ofList, trimStart_expandBytes, ← String.toList_inj, ← String.toList_inj,
    String.toList_ofList, String.toList_ofList, takeWhile_expandBytes hw]

theorem declaresScalar_expandLine (l : String) :
    declaresScalar (expandLine l) = declaresScalar l := by
  have hscalar : ∀ s : Scalar, ':' ∉ s.schemaName.toList ∧ ':' ∉ s.codeName.toList := by
    intro s
    cases s <;> decide
  have hbytes := firstWord_expandLine (w := bytesToken) (by decide) l
  have hvector := firstWord_expandLine (w := "vector") (by decide) l
  rw [Bool.eq_iff_iff]
  simp only [declaresScalar, Scalar.ofToken?, Bool.or_eq_true, beq_iff_eq, List.find?_isSome,
    eq_comm (b := firstWord _), hbytes, hvector, firstWord_expandLine (hscalar _).1,
    firstWord_expandLine (hscalar _).2]

namespace Block
variable {p xs ys : List NumberedLine} {l m : NumberedLine} {b : Block}

/-! ### Numbers -/

theorem number_append (n : Nat) (ls ms : List String) :
    number n (ls ++ ms) = number n ls ++ number (n + ls.length) ms := by
  induction ls generalizing n with
  | nil => rfl
  | cons l ls ih =>
    simp only [List.cons_append, number, ih, List.length_cons]
    rw [show n + 1 + ls.length = n + (ls.length + 1) by omega]

theorem map_text_number (n : Nat) (ls : List String) : (number n ls).map (·.text) = ls := by
  induction ls generalizing n with
  | nil => rfl
  | cons l ls ih => rw [number, List.map_cons, ih]

theorem of_mem_number {n : Nat} {ls : List String} (h : m ∈ number n ls) :
    ∃ above below, ls = above ++ m.text :: below ∧ m.number = n + above.length := by
  induction ls generalizing n with
  | nil => cases h
  | cons l ls ih =>
    rcases List.mem_cons.mp h with rfl | h
    · exact ⟨[], ls, rfl, rfl⟩
    · obtain ⟨above, below, rfl, hn⟩ := ih h
      refine ⟨l :: above, below, rfl, ?_⟩
      rw [List.length_cons]
      omega

theorem text_mem_of_mem_number {n : Nat} {ls : List String} (h : m ∈ number n ls) : m.text ∈ ls := by
  rw [← map_text_number n ls]
  exact List.mem_map_of_mem h

theorem bounds_of_mem_number {n : Nat} {ls : List String} (h : m ∈ number n ls) :
    n ≤ m.number ∧ m.number < n + ls.length := by
  obtain ⟨above, below, rfl, hn⟩ := of_mem_number h
  rw [List.length_append, List.length_cons]
  omega

/-! ### Grouping -/

theorem group_append_blank (hl : isBlankLine l.text = true) (p xs ys : List NumberedLine) :
    group p (xs ++ l :: ys) = group p xs ++ group [] ys := by
  induction xs generalizing p with
  | nil => simp [group, hl]
  | cons x xs ih =>
    simp only [List.cons_append, group]
    split
    · rw [ih, List.append_assoc]
    · exact ih (x :: p)

theorem group_append_of_not_blank (hxs : ∀ x ∈ xs, isBlankLine x.text = false)
    (p ys : List NumberedLine) : group p (xs ++ ys) = group (xs.reverse ++ p) ys := by
  induction xs generalizing p with
  | nil => rfl
  | cons x xs ih =>
    rw [List.cons_append, group, hxs x List.mem_cons_self]
    simp only [Bool.false_eq_true, if_false]
    rw [ih (fun y hy => hxs y (List.mem_cons_of_mem x hy)), List.reverse_cons, List.append_assoc]
    rfl

/-- What follows a blank line, or nothing, starts a new block. -/
theorem group_append_of_getLast? (hxs : ∀ x ∈ xs.getLast?, isBlankLine x.text = true)
    (ys : List NumberedLine) : group [] (xs ++ ys) = group [] xs ++ group [] ys := by
  rcases List.eq_nil_or_concat xs with rfl | ⟨xs, x, rfl⟩
  · rfl
  · have hx : isBlankLine x.text = true := hxs x (by simp)
    rw [List.concat_eq_append, List.append_assoc, List.singleton_append, group_append_blank hx,
      group_append_blank hx, group, flush, List.append_nil]

/-- A blank line, or the end, closes the block. -/
theorem group_of_head? (hys : ∀ y ∈ ys.head?, isBlankLine y.text = true) (p : List NumberedLine) :
    group p ys = flush p ++ group [] ys := by
  cases ys with
  | nil => rw [group, group, flush, List.append_nil]
  | cons y ys =>
    have hy := hys y rfl
    simp [group, hy, flush]

theorem mem_flush_iff : b ∈ flush p ↔ p ≠ [] ∧ b = ⟨p.reverse⟩ := by
  cases p with
  | nil => simp [flush]
  | cons l p => simp [flush]

theorem mem_of_mem_group (hb : b ∈ group p ys) (hm : m ∈ b.lines) :
    m ∈ p ∨ m ∈ ys ∧ isBlankLine m.text = false := by
  have hflush : ∀ q, b ∈ flush q → m ∈ q := by
    intro q hq
    rw [(mem_flush_iff.mp hq).2] at hm
    exact List.mem_reverse.mp hm
  induction ys generalizing p with
  | nil => exact .inl (hflush p hb)
  | cons y ys ih =>
    rw [group] at hb
    split at hb
    · rcases List.mem_append.mp hb with hb | hb
      · exact .inl (hflush p hb)
      · rcases ih hb with h | ⟨h, hblank⟩
        · cases h
        · exact .inr ⟨List.mem_cons_of_mem y h, hblank⟩
    next hy =>
      rcases ih hb with h | ⟨h, hblank⟩
      · rcases List.mem_cons.mp h with rfl | h
        · exact .inr ⟨List.mem_cons_self, Bool.eq_false_iff.mpr hy⟩
        · exact .inl h
      · exact .inr ⟨List.mem_cons_of_mem y h, hblank⟩

/-- A row of lines that are not blank, with blank lines or nothing around it, is a block. -/
theorem group_number {early ls late : List String} (n : Nat)
    (hearly : ∀ l ∈ early.getLast?, isBlankLine l = true) (hne : ls ≠ [])
    (hls : ∀ l ∈ ls, isBlankLine l = false) (hlate : ∀ l ∈ late.head?, isBlankLine l = true) :
    group [] (number n (early ++ (ls ++ late))) = group [] (number n early) ++
      ⟨number (n + early.length) ls⟩ :: group [] (number (n + early.length + ls.length) late) := by
  have hfirst : ∀ x ∈ (number n early).getLast?, isBlankLine x.text = true := by
    intro x hx
    refine hearly x.text ?_
    rw [← map_text_number n early, List.getLast?_map]
    exact Option.mem_map_of_mem _ hx
  have hlast : ∀ k, ∀ x ∈ (number k late).head?, isBlankLine x.text = true := by
    intro k x hx
    refine hlate x.text ?_
    rw [← map_text_number k late, List.head?_map]
    exact Option.mem_map_of_mem _ hx
  have hmid : ∀ x ∈ number (n + early.length) ls, isBlankLine x.text = false :=
    fun x hx => hls x.text (text_mem_of_mem_number hx)
  have hflush : flush (number (n + early.length) ls).reverse = [⟨number (n + early.length) ls⟩] := by
    rw [flush, List.reverse_reverse]
    intro h
    have hmap := map_text_number (n + early.length) ls
    rw [List.reverse_eq_nil_iff.mp h] at hmap
    exact hne hmap.symm
  rw [number_append, number_append, group_append_of_getLast? hfirst, group_append_of_not_blank hmid,
    List.append_nil, group_of_head? (hlast _), hflush]
  rfl

/-! ### The block of a line -/

/-- The lines of the same block directly above a line. -/
def above (ls : List String) : List String := ls.rtakeWhile (!isBlankLine ·)

/-- The lines of the same block directly below a line. -/
def below (ls : List String) : List String := ls.takeWhile (!isBlankLine ·)

/-- The number of the first line of a block of which the lines above end `ls`. -/
def start (ls : List String) : Nat := 1 + (ls.rdropWhile (!isBlankLine ·)).length

/-- The block of the line `l` that stands between the lines `as` and `bs`. -/
def around (as : List String) (l : String) (bs : List String) : Block :=
  ⟨number (start as) (above as ++ l :: below bs)⟩

variable {as bs : List String} {t : String}

theorem rdropWhile_append_above (as : List String) :
    as.rdropWhile (!isBlankLine ·) ++ above as = as :=
  List.rdropWhile_append_rtakeWhile

theorem start_add_length (as : List String) : start as + (above as).length = as.length + 1 := by
  have hlen := congrArg List.length (rdropWhile_append_above as)
  rw [List.length_append] at hlen
  unfold start
  omega

theorem lines_around (as : List String) (t : String) (bs : List String) :
    (around as t bs).lines =
      number (start as) (above as) ++ ⟨as.length + 1, t⟩ :: number (as.length + 2) (below bs) := by
  rw [around, number_append, start_add_length, number]

/-- The blocks of a text around one of its lines: some whose lines come before it, its own, and some
whose lines come after it. -/
theorem group_around (ht : isBlankLine t = false) (as bs : List String) :
    ∃ bs₁ bs₂, group [] (number 1 (as ++ t :: bs)) = bs₁ ++ around as t bs :: bs₂ ∧
      (∀ b ∈ bs₁, ∀ m ∈ b.lines, m.number < as.length + 1) ∧
      ∀ b ∈ bs₂, ∀ m ∈ b.lines, as.length + 1 < m.number := by
  have hearly : ∀ l ∈ (as.rdropWhile (!isBlankLine ·)).getLast?, isBlankLine l = true := by
    intro l hl
    obtain ⟨hne, rfl⟩ := List.mem_getLast?_eq_getLast hl
    simpa using List.rdropWhile_last_not (!isBlankLine ·) as hne
  have hlate : ∀ l ∈ (bs.dropWhile (!isBlankLine ·)).head?, isBlankLine l = true := by
    intro l hl
    simpa [Option.mem_def.mp hl] using List.head?_dropWhile_not (!isBlankLine ·) bs
  have hmid : ∀ l ∈ above as ++ t :: below bs, isBlankLine l = false := by
    intro l hl
    rcases List.mem_append.mp hl with hl | hl
    · simpa using List.mem_rtakeWhile_imp hl
    · rcases List.mem_cons.mp hl with rfl | hl
      · exact ht
      · simpa using List.mem_takeWhile_imp hl
  have hcut : as ++ t :: bs = as.rdropWhile (!isBlankLine ·) ++
      ((above as ++ t :: below bs) ++ bs.dropWhile (!isBlankLine ·)) := by
    rw [List.append_assoc, List.cons_append, below, List.takeWhile_append_dropWhile,
      ← List.append_assoc, rdropWhile_append_above]
  have hstart := start_add_length as
  unfold start at hstart
  refine ⟨_, _, by rw [hcut, group_number 1 hearly (by simp) hmid hlate]; rfl, ?_, ?_⟩
  · intro b hb m hm
    rcases mem_of_mem_group hb hm with h | ⟨h, -⟩
    · cases h
    · have hbound := bounds_of_mem_number h
      omega
  · intro b hb m hm
    rcases mem_of_mem_group hb hm with h | ⟨h, -⟩
    · cases h
    · have hbound := bounds_of_mem_number h
      rw [List.length_append, List.length_cons] at hbound
      omega

/-- Every block of a text is the block of each of its lines. -/
theorem exists_around_of_mem_group {ls : List String} (hb : b ∈ group [] (number 1 ls))
    (hl : l ∈ b.lines) : ∃ as bs, ls = as ++ l.text :: bs ∧ l.number = as.length + 1 ∧
      isBlankLine l.text = false ∧ b = around as l.text bs := by
  rcases mem_of_mem_group hb hl with h | ⟨hmem, hblank⟩
  · cases h
  obtain ⟨as, bs, rfl, hn⟩ := of_mem_number hmem
  rw [Nat.add_comm] at hn
  obtain ⟨bs₁, bs₂, hgroup, h₁, h₂⟩ := group_around hblank as bs
  refine ⟨as, bs, rfl, hn, hblank, ?_⟩
  rw [hgroup] at hb
  -- the number of the line tells its block from the others
  rcases List.mem_append.mp hb with hb | hb
  · have hlt := h₁ b hb l hl
    omega
  · rcases List.mem_cons.mp hb with hb | hb
    · exact hb
    · have hlt := h₂ b hb l hl
      omega

/-! ### Declaration lines -/

theorem declarationLine?_expand (b : Block) :
    b.expand.declarationLine? = b.declarationLine?.map fun l => ⟨l.number, expandLine l.text⟩ := by
  unfold declarationLine? expand
  rw [List.find?_map]
  simp only [Function.comp_def, isComment_expandLine]

/-- A line under nothing but comments is the declaration line of its block. -/
theorem declarationLine?_around (hhead : (above as).all isComment = true) (ht : isComment t = false)
    (bs : List String) : (around as t bs).declarationLine? = some ⟨as.length + 1, t⟩ := by
  have hnone : (number (start as) (above as)).find? (!isComment ·.text) = none := by
    rw [List.find?_eq_none]
    intro m hm
    simpa using List.all_eq_true.mp hhead m.text (text_mem_of_mem_number hm)
  rw [declarationLine?, lines_around, List.find?_append, hnone, Option.none_or, List.find?_cons, ht]
  rfl

/-- A line under another that is no comment is not the declaration line of its block. -/
theorem declarationLine?_around_lt (hhead : (above as).all isComment = false) (t : String)
    (bs : List String) :
    ∃ m, (around as t bs).declarationLine? = some m ∧ m.number < as.length + 1 := by
  obtain ⟨m, hm⟩ : ∃ m, (number (start as) (above as)).find? (!isComment ·.text) = some m := by
    rw [← Option.isSome_iff_exists, List.find?_isSome]
    obtain ⟨l, hl, hc⟩ := List.all_eq_false.mp hhead
    rw [← map_text_number (start as) (above as)] at hl
    obtain ⟨m, hm, rfl⟩ := List.mem_map.mp hl
    exact ⟨m, hm, by simpa using hc⟩
  refine ⟨m, ?_, ?_⟩
  · rw [declarationLine?, lines_around, List.find?_append, hm, Option.some_or]
  · rw [← start_add_length as]
    exact (bounds_of_mem_number (List.mem_of_find?_eq_some hm)).2

theorem item?_read_eq_declaration {decl : Declaration} (h : b.read.item? = some (.declaration decl)) :
    ∃ m, b.declarationLine? = some m ∧ declaresScalar m.text = false ∧
      Signature.parse m.text = .ok decl.toSignature ∧ decl.line = m.number ∧ decl.docs = b.docs := by
  unfold read at h
  split at h
  next =>
    split at h <;> cases h
  next m hm =>
    split at h
    · cases h
    next hs =>
      split at h
      next sig hsig =>
        cases h
        exact ⟨m, hm, Bool.eq_false_iff.mpr hs, hsig, rfl, rfl⟩
      · cases h

end Block

/-- Whether the item is a declaration in line `n`. -/
def Item.declaresIn (n : Nat) : Item → Bool
  | .declaration decl => decl.line == n
  | .union .. => false

namespace Schema
open Block
variable {file text : String} {is : List Item}

theorem contents_eq (text : String) :
    contents text = (group [] (number 1 (Text.lines text))).filterMap (·.expand.read.item?) := by
  rw [contents, readings, split, List.filterMap_map, List.filterMap_map]
  rfl

theorem filter_declaresIn_eq_nil {bs : List Block} {n : Nat}
    (h : ∀ b ∈ bs, ∀ m, b.declarationLine? = some m → m.number ≠ n) :
    (bs.filterMap (·.expand.read.item?)).filter (·.declaresIn n) = [] := by
  rw [List.filter_eq_nil_iff]
  intro i hi
  obtain ⟨b, hb, hi⟩ := List.mem_filterMap.mp hi
  cases i with
  | union => simp [Item.declaresIn]
  | declaration decl =>
    obtain ⟨m, hm, -, -, hline, -⟩ := item?_read_eq_declaration hi
    rw [declarationLine?_expand] at hm
    obtain ⟨l, hl, rfl⟩ := Option.map_eq_some_iff.mp hm
    simpa [Item.declaresIn, hline] using h b hb l hl

theorem filter_declaresIn_contents {as bs : List String} {l : String}
    (htext : Text.lines text = as ++ l :: bs) (hl : isBlankLine l = false) :
    (contents text).filter (·.declaresIn (as.length + 1)) =
      ([around as l bs].filterMap (·.expand.read.item?)).filter (·.declaresIn (as.length + 1)) := by
  obtain ⟨bs₁, bs₂, hgroup, h₁, h₂⟩ := group_around hl as bs
  have hbefore : ∀ b ∈ bs₁, ∀ m, b.declarationLine? = some m → m.number ≠ as.length + 1 :=
    fun b hb m hm => (h₁ b hb m (List.mem_of_find?_eq_some hm)).ne
  have hafter : ∀ b ∈ bs₂, ∀ m, b.declarationLine? = some m → m.number ≠ as.length + 1 :=
    fun b hb m hm => (h₂ b hb m (List.mem_of_find?_eq_some hm)).ne'
  rw [contents_eq, htext, hgroup, ← List.singleton_append, List.filterMap_append,
    List.filterMap_append, List.filter_append, List.filter_append,
    filter_declaresIn_eq_nil hbefore, filter_declaresIn_eq_nil hafter, List.nil_append,
    List.append_nil]

/-- The declaration line of a block that is read without an error declares something, unless it is of
a scalar. -/
theorem read_around_of_strict {as bs : List String} {l : String} (h : items true file text = .ok is)
    (htext : Text.lines text = as ++ l :: bs) (hl : isBlankLine l = false) (hc : isComment l = false)
    (hs : declaresScalar l = false) (hhead : (above as).all isComment = true) :
    ∃ sig, Signature.parse (expandLine l) = .ok sig ∧ (around as l bs).expand.read =
      .item (.declaration ⟨sig, as.length + 1, (around as l bs).expand.docs⟩) := by
  have hline : (around as l bs).expand.declarationLine? = some ⟨as.length + 1, expandLine l⟩ := by
    rw [declarationLine?_expand, declarationLine?_around hhead hc]
    rfl
  have hs : declaresScalar (expandLine l) = false := by rwa [declaresScalar_expandLine]
  cases hsig : Signature.parse (expandLine l) with
  | ok sig => exact ⟨sig, rfl, by simp [Block.read, hline, hs, hsig]⟩
  | error fault =>
    have hread : (around as l bs).expand.read = .malformed (as.length + 1) fault := by
      simp [Block.read, hline, hs, hsig]
    -- the block would have been the end of the reading
    obtain ⟨bs₁, bs₂, hgroup, -⟩ := group_around hl as bs
    have hmem : (around as l bs).expand.read ∈ readings text := by
      rw [readings, split, htext, hgroup]
      simp
    obtain ⟨n, f, herror⟩ := Compile.items_of_malformed file hmem (by rw [hread]; rfl)
    rw [herror] at h
    cases h

/-- In a schema that is read strictly to its end, a line that is not blank, not a comment and not of a
scalar has exactly one declaration if it is the first of its block that is no comment, and none if it
is not. There are no other declarations. -/
theorem declarations_of_strict (h : items true file text = .ok is) :
    (∀ as l bs, Text.lines text = as ++ l :: bs → isBlankLine l = false → isComment l = false →
      declaresScalar l = false →
      if (above as).all isComment then
        ∃ decl, is.filter (·.declaresIn (as.length + 1)) = [.declaration decl] ∧
          Signature.parse (expandLine l) = .ok decl.toSignature ∧
          decl.docs = (around as l bs).expand.docs
      else is.filter (·.declaresIn (as.length + 1)) = []) ∧
    ∀ decl, .declaration decl ∈ is → ∃ as l bs, Text.lines text = as ++ l :: bs ∧
      decl.line = as.length + 1 ∧ isBlankLine l = false ∧ isComment l = false ∧
      declaresScalar l = false ∧ (above as).all isComment = true := by
  obtain rfl := eq_contents h
  refine ⟨?_, ?_⟩
  · intro as l bs htext hl hc hs
    rw [filter_declaresIn_contents htext hl]
    split
    next hhead =>
      obtain ⟨sig, hsig, hread⟩ := read_around_of_strict h htext hl hc hs hhead
      refine ⟨⟨sig, as.length + 1, (around as l bs).expand.docs⟩, ?_, hsig, rfl⟩
      simp [hread, Reading.item?, Item.declaresIn]
    next hhead =>
      obtain ⟨m, hm, hlt⟩ := declarationLine?_around_lt (Bool.eq_false_iff.mpr hhead) l bs
      refine filter_declaresIn_eq_nil fun b hb k hk => ?_
      rw [List.mem_singleton.mp hb, hm] at hk
      cases hk
      exact hlt.ne
  · intro decl hdecl
    rw [contents_eq] at hdecl
    obtain ⟨b, hb, hi⟩ := List.mem_filterMap.mp hdecl
    obtain ⟨m, hm, hs, -, hline, -⟩ := item?_read_eq_declaration hi
    rw [declarationLine?_expand] at hm
    obtain ⟨l, hl, rfl⟩ := Option.map_eq_some_iff.mp hm
    obtain ⟨as, bs, htext, hn, hblank, rfl⟩ :=
      exists_around_of_mem_group hb (List.mem_of_find?_eq_some hl)
    refine ⟨as, l.text, bs, htext, hline.trans hn, hblank, ?_, ?_, ?_⟩
    · simpa using List.find?_some hl
    · rwa [declaresScalar_expandLine] at hs
    · by_contra hhead
      obtain ⟨k, hk, hlt⟩ := declarationLine?_around_lt (Bool.eq_false_iff.mpr hhead) l.text bs
      rw [hl] at hk
      cases hk
      omega

/-- Two declarations in one block. -/
def stacked : String := "a = A;\nb = B;"

theorem items_stacked (file : String) :
    items true file stacked = .ok [.declaration ⟨⟨"a", [], "A"⟩, 1, {}⟩] := by
  with_unfolding_all rfl

theorem declarations_of_strict_stacked :
    ∃ is, items true "types" stacked = .ok is ∧
      (∃ decl, is.filter (·.declaresIn 1) = [.declaration decl]) ∧
      is.filter (·.declaresIn 2) = [] := by
  obtain ⟨hlines, -⟩ := declarations_of_strict (items_stacked "types")
  obtain ⟨decl, hdecl, -⟩ := hlines [] "a = A;" ["b = B;"] rfl (by decide) (by decide) (by decide)
  exact ⟨_, items_stacked "types", ⟨decl, hdecl⟩,
    hlines ["a = A;"] "b = B;" [] rfl (by decide) (by decide) (by decide)⟩

/-- The second line of `stacked` has no declaration, though it is not blank, not a comment and not of
a scalar. -/
theorem not_every_line_declares : ¬ ∀ is, items true "types" stacked = .ok is →
    ∀ as l bs, Text.lines stacked = as ++ l :: bs → isBlankLine l = false → isComment l = false →
      declaresScalar l = false →
      ∃ decl, is.filter (·.declaresIn (as.length + 1)) = [.declaration decl] ∧
        Signature.parse (expandLine l) = .ok decl.toSignature := by
  intro h
  obtain ⟨decl, hdecl, -⟩ := h _ (items_stacked "types") ["a = A;"] "b = B;" [] rfl (by decide)
    (by decide) (by decide)
  cases hdecl

end Schema

end TypeLang
