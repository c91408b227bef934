import Mathlib.Data.List.SplitBy
import TypeLang.Proofs.Blocks

/-! # How a text divides into blocks

Nothing of a text is lost as it is cut into lines and its lines into blocks, and nothing is made up.
`Text.IsLines` says what the lines of a text are, and `Block.IsDivision` what the blocks of these lines
are: runs of lines that are not blank, with a blank line between one and the next. A text has one
division (`Block.split_eq_iff`).

The numbers of the lines carry the argument: they go up by one inside a block and by more between two
blocks, so that the blocks are the runs of consecutive numbers (`IsDivision.map_lines`). -/

namespace TypeLang

open Text

/-! ### Lines -/

namespace Text
variable {t : String} {ls : List String} {line cs : List Char}

/-- The lines of a text. Each ends at a line feed, which may have a carriage return in front of it, and
the last one may as well end with the text if it is not empty. -/
inductive IsLines : List String → String → Prop
  | nil : IsLines [] ""
  | last {l : String} (hl : '\n' ∉ l.toList) (hne : l ≠ "") : IsLines [l] l
  | feed {l : String} {ls : List String} {t : String} (hl : '\n' ∉ l.toList)
    (hreturn : l.toList.getLast? ≠ some '\r') (h : IsLines ls t) : IsLines (l :: ls) (l ++ "\n" ++ t)
  | returnFeed {l : String} {ls : List String} {t : String} (hl : '\n' ∉ l.toList)
    (h : IsLines ls t) : IsLines (l :: ls) (l ++ "\r\n" ++ t)

theorem linesFrom_append (hcs : '\n' ∉ cs) (line ds : List Char) :
    linesFrom line (cs ++ ds) = linesFrom (cs.reverse ++ line) ds := by
  induction cs generalizing line with
  | nil => rfl
  | cons c cs ih =>
    obtain ⟨hc, hcs⟩ : '\n' ≠ c ∧ '\n' ∉ cs := by simpa using hcs
    rw [List.cons_append, linesFrom, if_neg hc.symm, ih hcs]
    simp

theorem lines_append_feed {l : String} (hl : '\n' ∉ l.toList) (t : String) :
    lines (l ++ "\n" ++ t) = String.ofList (dropReturn l.toList.reverse).reverse :: lines t := by
  have htext : (l ++ "\n" ++ t).toList = l.toList ++ '\n' :: t.toList := by simp
  rw [lines, htext, linesFrom_append hl]
  simp [linesFrom, lines]

theorem dropReturn_reverse (h : cs.getLast? ≠ some '\r') : dropReturn cs.reverse = cs.reverse := by
  unfold dropReturn
  split
  · next line hline => simp [List.getLast?_eq_head?_reverse, hline] at h
  · rfl

theorem IsLines.lines_eq (h : IsLines ls t) : lines t = ls := by
  induction h with
  | nil => rfl
  | @last l hl hne =>
    have hrun := linesFrom_append hl [] []
    rw [List.append_nil, List.append_nil] at hrun
    rw [lines, hrun, linesFrom, if_neg (by simpa using hne)]
    simp
  | @feed l ls t hl hreturn h ih =>
    rw [lines_append_feed hl, dropReturn_reverse hreturn, ih]
    simp
  | @returnFeed l ls t hl h ih =>
    have htext : l ++ "\r\n" ++ t = l ++ "\r" ++ "\n" ++ t := by simp [← String.toList_inj]
    rw [htext, lines_append_feed (by simpa using hl), ih]
    simp [dropReturn]

theorem isLines_linesFrom (hline : '\n' ∉ line) (cs : List Char) :
    IsLines ((linesFrom line cs).map String.ofList) (String.ofList (line.reverse ++ cs)) := by
  induction cs generalizing line with
  | nil =>
    cases line with
    | nil => exact .nil
    | cons c line =>
      rw [List.append_nil]
      exact .last (by simpa [and_comm] using hline) (by simp [← String.toList_inj])
  | cons c cs ih =>
    rw [linesFrom]
    split
    next hc =>
      subst hc
      have hrest := ih List.not_mem_nil
      -- the carriage return, if there is one, is the newest character
      by_cases hreturn : line.head? = some '\r'
      · obtain ⟨line, rfl⟩ := List.head?_eq_some_iff.mp hreturn
        have htext : String.ofList (('\r' :: line).reverse ++ '\n' :: cs) =
            String.ofList line.reverse ++ "\r\n" ++ String.ofList cs := by
          simp [← String.toList_inj]
        have hdrop : dropReturn ('\r' :: line) = line := rfl
        rw [htext, hdrop]
        exact .returnFeed (by simpa using hline) hrest
      · have hlast : line.reverse.getLast? ≠ some '\r' := by simpa using hreturn
        have hdrop : dropReturn line = line := by
          simpa using dropReturn_reverse hlast
        have htext : String.ofList (line.reverse ++ '\n' :: cs) =
            String.ofList line.reverse ++ "\n" ++ String.ofList cs := by
          simp [← String.toList_inj]
        rw [htext, hdrop]
        exact .feed (by simpa using hline) (by simpa using hreturn) hrest
    next hc =>
      have hline' : '\n' ∉ c :: line := by simpa using ⟨Ne.symm hc, hline⟩
      have hrest := ih hline'
      rwa [List.reverse_cons, List.append_assoc] at hrest

/-- What `lines` gives is the lines of the text, and nothing else is. -/
theorem isLines_iff : IsLines ls t ↔ lines t = ls := by
  refine ⟨IsLines.lines_eq, ?_⟩
  rintro rfl
  have h := isLines_linesFrom List.not_mem_nil t.toList
  rwa [List.reverse_nil, List.nil_append, String.ofList_toList] at h

end Text

/-! ### Blocks -/

namespace Block
variable {p xs : List NumberedLine} {ls : List String} {b : Block} {bs bs' : List Block}

/-- One of the numbered lines is blank and stands between the two blocks. -/
def Parted (rows : List (String × Nat)) (b c : Block) : Prop :=
  ∀ l ∈ b.lines.getLast?, ∀ m ∈ c.lines.head?, ∃ row ∈ rows,
    isBlankLine row.1 = true ∧ l.number < row.2 ∧ row.2 < m.number

/-- The blocks hold the lines that are not blank, in order, with their numbers and with `bytes` written
out. Each block is a run of lines, and a blank line stands between a block and the next. -/
structure IsDivision (ls : List String) (bs : List Block) : Prop where
  flatMap_lines : bs.flatMap (·.lines) =
    ((ls.zipIdx 1).filter (!isBlankLine ·.1)).map fun l => ⟨l.2, expandLine l.1⟩
  ne_nil : ∀ b ∈ bs, b.lines ≠ []
  consecutive : ∀ b ∈ bs, b.lines.IsChain fun l m => m.number = l.number + 1
  parted : bs.IsChain (Parted (ls.zipIdx 1))

theorem number_eq_map_zipIdx (n : Nat) (ls : List String) :
    number n ls = (ls.zipIdx n).map fun l => ⟨l.2, l.1⟩ := by
  induction ls generalizing n with
  | nil => rfl
  | cons l ls ih => rw [number, ih, List.zipIdx_cons, List.map_cons]

theorem isChain_number (n : Nat) (ls : List String) :
    (number n ls).IsChain fun l m => m.number = l.number + 1 := by
  induction ls generalizing n with
  | nil => exact .nil
  | cons l ls ih =>
    refine List.isChain_cons.mpr ⟨?_, ih (n + 1)⟩
    intro m hm
    cases ls with
    | nil => cases hm
    | cons l' ls => cases hm; rfl

theorem flatMap_lines_flush (p : List NumberedLine) : (flush p).flatMap (·.lines) = p.reverse := by
  cases p with
  | nil => rfl
  | cons l p => simp [flush]

theorem flatMap_lines_group (p xs : List NumberedLine) :
    (group p xs).flatMap (·.lines) = p.reverse ++ xs.filter (!isBlankLine ·.text) := by
  induction xs generalizing p with
  | nil => rw [group, flatMap_lines_flush, List.filter_nil, List.append_nil]
  | cons x xs ih =>
    rw [group]
    split
    next hx =>
      rw [List.flatMap_append, flatMap_lines_flush, ih, List.filter_cons_of_neg (by simp [hx])]
      rfl
    next hx =>
      rw [ih, List.filter_cons_of_pos (by simpa using hx)]
      simp

theorem ne_nil_of_mem_group (hb : b ∈ group p xs) : b.lines ≠ [] := by
  have hflush : ∀ q, b ∈ flush q → b.lines ≠ [] := by
    intro q hq
    obtain ⟨hne, rfl⟩ := mem_flush_iff.mp hq
    simpa using hne
  induction xs generalizing p with
  | nil => exact hflush p hb
  | cons x xs ih =>
    rw [group] at hb
    split at hb
    · rcases List.mem_append.mp hb with hb | hb
      · exact hflush p hb
      · exact ih hb
    · exact ih hb

/-- A block of a text is a piece of its numbered lines. -/
theorem isChain_of_mem_group (hb : b ∈ group [] (number 1 ls)) :
    b.lines.IsChain fun l m => m.number = l.number + 1 := by
  obtain ⟨l, hl⟩ := List.exists_mem_of_ne_nil _ (ne_nil_of_mem_group hb)
  obtain ⟨as, bs, -, -, -, rfl⟩ := exists_around_of_mem_group hb hl
  exact isChain_number _ _

theorem Parted.cons {rows : List (String × Nat)} {c : Block} (h : Parted rows b c) (row : String × Nat) :
    Parted (row :: rows) b c := by
  intro l hl m hm
  obtain ⟨row', hrow', hparted⟩ := h l hl m hm
  exact ⟨row', List.mem_cons_of_mem row hrow', hparted⟩

theorem Parted.expand {rows : List (String × Nat)} {c : Block} (h : Parted rows b c) :
    Parted rows b.expand c.expand := by
  intro l hl m hm
  rw [Block.expand, List.getLast?_map] at hl
  rw [Block.expand, List.head?_map] at hm
  obtain ⟨l', hl', rfl⟩ := Option.mem_map.mp hl
  obtain ⟨m', hm', rfl⟩ := Option.mem_map.mp hm
  exact h l' hl' m' hm'

theorem isChain_flush (rows : List (String × Nat)) (p : List NumberedLine) :
    (flush p).IsChain (Parted rows) := by
  cases p with
  | nil => exact .nil
  | cons l p => exact .singleton _

/-- It takes a blank line to close a block, and what is read after it comes later. -/
theorem isChain_group {n : Nat} (hp : ∀ l ∈ p, l.number < n) (ls : List String) :
    (group p (number n ls)).IsChain (Parted (ls.zipIdx n)) := by
  induction ls generalizing p n with
  | nil => exact isChain_flush _ p
  | cons l ls ih =>
    rw [number, group]
    split
    next hl =>
      have hrest : (group [] (number (n + 1) ls)).IsChain (Parted ((l, n) :: ls.zipIdx (n + 1))) :=
        (ih (by simp)).imp fun b c h => h.cons (l, n)
      refine (isChain_flush _ p).append hrest fun b hb c hc x hx m hm => ?_
      have hx : x ∈ p := by
        obtain ⟨-, rfl⟩ := mem_flush_iff.mp (List.mem_of_mem_getLast? hb)
        exact List.mem_reverse.mp (List.mem_of_mem_getLast? hx)
      have hm : m ∈ number (n + 1) ls := by
        have hmem := mem_of_mem_group (List.mem_of_mem_head? hc) (List.mem_of_mem_head? hm)
        exact (hmem.resolve_left List.not_mem_nil).1
      have hlast := hp x hx
      have hfirst := (bounds_of_mem_number hm).1
      exact ⟨(l, n), List.mem_cons_self, hl, hlast, by omega⟩
    next hl =>
      refine (ih ?_).imp fun b c h => h.cons (l, n)
      intro x hx
      rcases List.mem_cons.mp hx with rfl | hx
      · exact Nat.lt_succ_self n
      · exact Nat.lt_succ_of_lt (hp x hx)

theorem isDivision_split (text : String) : IsDivision (Text.lines text) (split text) where
  flatMap_lines := by
    have hlines := flatMap_lines_group [] (number 1 (Text.lines text))
    rw [number_eq_map_zipIdx, List.filter_map] at hlines
    simp only [split, expand, List.flatMap_map, ← List.map_flatMap]
    rw [number_eq_map_zipIdx, hlines]
    simp [Function.comp_def]
  ne_nil := by
    intro b hb
    obtain ⟨b', hb', rfl⟩ := List.mem_map.mp hb
    simpa [expand] using ne_nil_of_mem_group hb'
  consecutive := by
    intro b hb
    obtain ⟨b', hb', rfl⟩ := List.mem_map.mp hb
    exact (List.isChain_map _).mpr (isChain_of_mem_group hb')
  parted := by
    have hchain := isChain_group (p := []) (n := 1) (by simp) (Text.lines text)
    exact (List.isChain_map _).mpr (hchain.imp fun b c h => h.expand)

/-- The blocks of a division are the runs of lines with consecutive numbers. -/
theorem IsDivision.map_lines (h : IsDivision ls bs) :
    bs.map (·.lines) = (bs.flatMap (·.lines)).splitBy fun l m => m.number == l.number + 1 := by
  have hne : [] ∉ bs.map (·.lines) := by
    intro hnil
    obtain ⟨b, hb, hlines⟩ := List.mem_map.mp hnil
    exact h.ne_nil b hb hlines
  rw [List.flatMap_def, List.splitBy_flatten hne]
  · simpa using h.consecutive
  · refine (List.isChain_map _).mpr (h.parted.imp_of_mem_imp fun b c hb hc hparted => ?_)
    have hb := h.ne_nil b hb
    have hc := h.ne_nil c hc
    refine ⟨hb, hc, ?_⟩
    obtain ⟨row, -, -, hlast, hfirst⟩ := hparted _ (List.getLast_mem_getLast? hb) _ (List.head_mem_head? hc)
    simp
    omega

theorem IsDivision.unique (h : IsDivision ls bs) (h' : IsDivision ls bs') : bs = bs' := by
  have hlines : bs.map (·.lines) = bs'.map (·.lines) := by
    rw [h.map_lines, h'.map_lines, h.flatMap_lines, h'.flatMap_lines]
  refine List.map_injective_iff.mpr ?_ hlines
  rintro ⟨ls⟩ ⟨ls'⟩ rfl
  rfl

/-- The blocks of a text are the division of its lines, and its only one. -/
theorem split_eq_iff {text : String} :
    split text = bs ↔ ∃ ls, IsLines ls text ∧ IsDivision ls bs := by
  constructor
  · rintro rfl
    exact ⟨_, isLines_iff.mpr rfl, isDivision_split text⟩
  · rintro ⟨ls, hls, h⟩
    rw [isLines_iff] at hls
    exact (hls ▸ isDivision_split text).unique h

example : split "\n a\r\nb c:bytes\r\n\t\n\r\nd\r" =
    [⟨[⟨2, " a"⟩, ⟨3, "b c:vector<byte>"⟩]⟩, ⟨[⟨6, "d\r"⟩]⟩] := by
  decide

end Block

end TypeLang
