import TypeLang.Proofs.Tiling
import TypeLang.Proofs.WrittenOut

/-! # Columns in lines with bytes written out

A line in which `bytes` was written out has the tokens of the line as it was, one for one: only the word
behind a colon may be another (`Respelled`). The columns are not the same. Each `:bytes` that is written out
moves what comes after it by seven bytes (`movedBy`). So reading goes through the same steps, and what it
reports, the columns of the fields or that of a fault, is moved (`along_parse`). A fault is reported where
the line has it exactly if no `:bytes` was written out before that place (`split_showsBytes`). -/

namespace TypeLang

open Text

/-! ### Columns that move -/

/-- The columns of the words `bytes` that are written out in a text that starts in column `n`. -/
def bytesColumns (n : Nat) : List Char → List Nat
  | [] => []
  | ':' :: 'b' :: 'y' :: 't' :: 'e' :: 's' :: cs =>
    if endsWord cs then (n + 1) :: bytesColumns (n + 6) cs else bytesColumns (n + 6) cs
  | c :: cs => bytesColumns (n + c.utf8Size) cs

/-- The column to which a column moves if `bytes` is written out in the given ones. -/
def movedBy (columns : List Nat) (column : Nat) : Nat := column + 7 * columns.countP (· < column)

section Columns
variable {n column : Nat} {early late : List Nat} {c : Char} {cs ds : List Char}

theorem movedBy_append (hearly : ∀ q ∈ early, q < column) (hlate : ∀ q ∈ late, column ≤ q) :
    movedBy (early ++ late) column = column + 7 * early.length := by
  have hcount : early.countP (· < column) = early.length :=
    List.countP_eq_length.mpr fun q hq => decide_eq_true (hearly q hq)
  have hzero : late.countP (· < column) = 0 :=
    List.countP_eq_zero.mpr fun q hq => by simpa using hlate q hq
  rw [movedBy, List.countP_append, hcount, hzero, Nat.add_zero]

theorem movedBy_eq_self_iff {columns : List Nat} :
    movedBy columns column = column ↔ ∀ q ∈ columns, column ≤ q := by
  have hzero : columns.countP (· < column) = 0 ↔ ∀ q ∈ columns, column ≤ q := by
    simp [List.countP_eq_zero]
  rw [← hzero, movedBy]
  omega

theorem width_cons (c : Char) (cs : List Char) : Token.width (c :: cs) = c.utf8Size + Token.width cs := rfl

theorem bytesColumns_bytes (n : Nat) (h : endsWord cs = true) :
    bytesColumns n (":bytes".toList ++ cs) = (n + 1) :: bytesColumns (n + 6) cs := by
  show bytesColumns n (':' :: 'b' :: 'y' :: 't' :: 'e' :: 's' :: cs) = _
  rw [bytesColumns, if_pos h]

theorem bytesColumns_cons_of_ne (hc : c ≠ ':') (n : Nat) (cs : List Char) :
    bytesColumns n (c :: cs) = bytesColumns (n + c.utf8Size) cs :=
  bytesColumns.eq_3 n c cs fun _ hcolon => absurd hcolon hc

theorem bytesColumns_append (n : Nat) (h : ':' ∉ cs) (ds : List Char) :
    bytesColumns n (cs ++ ds) = bytesColumns (n + Token.width cs) ds := by
  induction cs generalizing n with
  | nil => rfl
  | cons c cs ih =>
    rw [List.mem_cons, not_or] at h
    rw [List.cons_append, bytesColumns_cons_of_ne (Ne.symm h.1), ih _ h.2, width_cons, Nat.add_assoc]

theorem bytesColumns_keep (n : Nat) (h : ¬ StartsBytes (c :: cs)) :
    bytesColumns n (c :: cs) = bytesColumns (n + c.utf8Size) cs := by
  generalize hds : c :: cs = ds
  fun_cases bytesColumns n ds with
  | case1 => cases hds
  | case2 after hends =>
    obtain ⟨rfl, rfl⟩ := List.cons.inj hds
    exact absurd ⟨after, rfl, hends⟩ h
  | case3 after hends =>
    obtain ⟨rfl, rfl⟩ := List.cons.inj hds
    exact (@bytesColumns_append "bytes".toList (n + 1) (by decide) after).symm
  | case4 d ds =>
    obtain ⟨rfl, rfl⟩ := List.cons.inj hds
    rfl

/-- Every `:bytes` that ends a word is written out. -/
theorem mem_bytesColumns_iff {q : Nat} : q ∈ bytesColumns n cs ↔
    ∃ before after, cs = before ++ (":bytes".toList ++ after) ∧ endsWord after = true ∧
      q = n + Token.width before + 1 := by
  induction cs using expandBytes_induction generalizing n with
  | nil =>
    refine iff_of_false List.not_mem_nil ?_
    rintro ⟨before, after, hcut, -⟩
    simp at hcut
  | bytes rest hends ih =>
    rw [bytesColumns_bytes n hends, List.mem_cons, ih]
    have hwidth (before : List Char) :
        n + 6 + Token.width before + 1 = n + Token.width (":bytes".toList ++ before) + 1 := by
      rw [Token.width_append, show Token.width ":bytes".toList = 6 by decide, Nat.add_assoc n]
    constructor
    · rintro (rfl | ⟨before, after, rfl, hends', rfl⟩)
      · exact ⟨[], rest, rfl, hends, rfl⟩
      · exact ⟨":bytes".toList ++ before, after, by simp, hends', hwidth before⟩
    · rintro ⟨before, after, hcut, hends', rfl⟩
      cases before with
      | nil => exact .inl rfl
      | cons d before =>
        obtain ⟨rfl, htail⟩ := List.cons.inj (show ':' :: ("bytes".toList ++ rest) = _ from hcut)
        change "bytes".toList ++ rest = before ++ (":bytes".toList ++ after) at htail
        obtain ⟨x, rfl, hrest⟩ :
            ∃ x, before = "bytes".toList ++ x ∧ rest = x ++ (":bytes".toList ++ after) := by
          rcases List.append_eq_append_iff.mp htail with hx | ⟨x, hx, hrest⟩
          · exact hx
          · cases x with
            | nil => exact ⟨[], by rw [List.append_nil, hx, List.append_nil], hrest.symm⟩
            | cons e x =>
              -- a second colon would stand in `bytes`
              obtain ⟨rfl, -⟩ := List.cons.inj (show ':' :: ("bytes".toList ++ after) = _ from hrest)
              exact absurd (by rw [hx]; simp) (show ':' ∉ "bytes".toList by decide)
        exact .inr ⟨x, after, hrest, hends', (hwidth x).symm⟩
  | keep c cs hkeep ih =>
    rw [bytesColumns_keep n hkeep, ih]
    constructor
    · rintro ⟨before, after, rfl, hends, rfl⟩
      exact ⟨c :: before, after, rfl, hends, by rw [width_cons, ← Nat.add_assoc n]⟩
    · rintro ⟨before, after, hcut, hends, rfl⟩
      cases before with
      | nil => exact absurd ⟨after, hcut, hends⟩ hkeep
      | cons d before =>
        obtain ⟨rfl, rfl⟩ := List.cons.inj hcut
        exact ⟨before, after, rfl, hends, by rw [width_cons, ← Nat.add_assoc n]⟩

theorem lt_of_mem_bytesColumns {q : Nat} (h : q ∈ bytesColumns n cs) :
    n < q ∧ q < n + Token.width cs := by
  obtain ⟨before, after, rfl, -, rfl⟩ := mem_bytesColumns_iff.mp h
  rw [Token.width_append, Token.width_append, show Token.width ":bytes".toList = 6 by decide]
  omega

theorem width_expandBytes (n : Nat) (cs : List Char) :
    Token.width (expandBytes cs) = Token.width cs + 7 * (bytesColumns n cs).length := by
  induction cs using expandBytes_induction generalizing n with
  | nil => rfl
  | bytes after hends ih =>
    rw [expandBytes_bytes hends, bytesColumns_bytes n hends, Token.width_append, Token.width_append,
      ih (n + 6), List.length_cons, show Token.width ":bytes".toList = 6 by decide,
      show Token.width ":vector<byte>".toList = 13 by decide]
    omega
  | keep c cs hkeep ih =>
    rw [expandBytes_keep hkeep, bytesColumns_keep n hkeep, width_cons, width_cons, ih, Nat.add_assoc]

end Columns

/-! ### Results with moved columns -/

/-- Two results of which one has the columns of the other moved: that of its fault, or those of its value,
which `R` compares. -/
def Along {α : Type} (move : Nat → Nat) (R : α → α → Prop) :
    Except Fault α → Except Fault α → Prop
  | .ok a', .ok a => R a' a
  | .error f', .error f => f'.column = move f.column
  | _, _ => False

section Along
variable {α β : Type} {move : Nat → Nat} {R : α → α → Prop} {S : β → β → Prop}
  {r r' : Except Fault α}

theorem Along.map {f f' : α → β} (h : Along move R r' r) (hf : ∀ a' a, R a' a → S (f' a') (f a)) :
    Along move S (r'.map f') (r.map f) := by
  cases r' <;> cases r
  · exact h
  · exact h
  · exact h
  · exact hf _ _ h

theorem Along.bind {f f' : α → Except Fault β} (h : Along move R r' r)
    (hf : ∀ a' a, R a' a → Along move S (f' a') (f a)) : Along move S (r'.bind f') (r.bind f) := by
  cases r' <;> cases r
  · exact h
  · exact h.elim
  · exact h.elim
  · exact hf _ _ h

end Along

/-! ### Tokens -/

/-- The tokens of a line in which `bytes` was written out, and those of the line as it was: the word
behind a colon may be spelled differently. -/
inductive Respelled (move : Nat → Nat) : List Token → List Token → Prop
  | nil : Respelled move [] []
  | keep (x : Lexeme) (column : Nat) {ts' ts : List Token} (h : Respelled move ts' ts) :
      Respelled move (⟨x, move column⟩ :: ts') (⟨x, column⟩ :: ts)
  | bytes (column : Nat) (more : List Char) (hmore : ∀ c ∈ more.head?, c = '<' ∨ c = '>')
      {ts' ts : List Token} (h : Respelled move ts' ts) :
      Respelled move
        (⟨.colon, move column⟩ ::
          ⟨.word (String.ofList ("vector<byte>".toList ++ more)), move (column + 1)⟩ :: ts')
        (⟨.colon, column⟩ :: ⟨.word (String.ofList ("bytes".toList ++ more)), column + 1⟩ :: ts)

namespace Token
variable {n : Nat} {early : List Nat} {cs : List Char}

theorem scan_unreadable {c : Char} (hc : isStart c = false) (n : Nat) (cs : List Char) :
    scan n (c :: cs) =
      .error ⟨n, .unreadable (String.ofList (c :: cs.takeWhile fun d => !isStart d))⟩ := by
  simp only [isStart, Bool.or_eq_false_iff] at hc
  obtain ⟨⟨hblank, hmark⟩, hstart⟩ := hc
  rw [Option.isSome_eq_false_iff, Option.isNone_iff_eq_none] at hmark
  rw [scan, if_neg (by simp [hblank])]
  simp only [hmark, hstart, Bool.false_eq_true, if_false]

theorem map_map {α β γ : Type} (r : Except Fault α) (f : α → β) (g : β → γ) :
    (r.map f).map g = r.map fun a => g (f a) := by
  cases r <;> rfl

/-- A word goes on as far as it can. -/
theorem scan_word_append {w : List Char} (hw : isWord (String.ofList w) = true) (n : Nat) (cs : List Char) :
    scan n (w ++ cs) = (scan (n + width (w ++ cs.takeWhile isWordPart)) (cs.dropWhile isWordPart)).map
      (⟨.word (String.ofList (w ++ cs.takeWhile isWordPart)), n⟩ :: ·) := by
  rw [isWord, String.toList_ofList, Bool.and_eq_true] at hw
  cases w with
  | nil => cases hw.1
  | cons c w =>
    have hstart : isWordStart c = true := hw.1
    have hblank := TypeExpr.isBlank_of_isWordPart (isWordPart_of_isWordStart hstart)
    have hparts : ∀ d ∈ w, isWordPart d = true :=
      fun d hd => List.all_eq_true.mp hw.2 d (List.mem_cons_of_mem c hd)
    rw [List.cons_append, scan, if_neg (by rw [hblank]; exact Bool.false_ne_true)]
    simp only [mark?_of_isWordStart hstart, hstart, ↓reduceIte, List.takeWhile_append_of_pos hparts,
      List.dropWhile_append_of_pos hparts]
    rfl

theorem bytesColumns_takeWhile (n : Nat) (cs : List Char) : bytesColumns n cs =
    bytesColumns (n + width (cs.takeWhile isWordPart)) (cs.dropWhile isWordPart) := by
  conv_lhs => rw [← List.takeWhile_append_dropWhile (p := isWordPart) (l := cs)]
  exact bytesColumns_append n (fun h => absurd (List.mem_takeWhile_imp h) (by decide)) _

/-- What goes on with a word that ends before it are brackets. -/
theorem head?_of_endsWord {after : List Char} (h : endsWord after = true) :
    ∀ c ∈ (after.takeWhile isWordPart).head?, c = '<' ∨ c = '>' := by
  cases after with
  | nil => simp
  | cons c after =>
    intro d hd
    rw [List.takeWhile_cons] at hd
    split at hd
    · next hpart =>
      cases hd
      simp only [isWordPart, Bool.or_eq_true, beq_iff_eq] at hpart
      rcases hpart with (hword | hopen) | hclose
      · have hchar : isWordChar c = true := isWordChar_of_word (by simpa using hword)
        simp [endsWord, hchar] at h
      · exact .inl hopen
      · exact .inr hclose
    · cases hd

/-- Writing `bytes` out respells the tokens of a text that starts in column `n`, behind the `early` columns
where it was written out. -/
def AlongScan (early : List Nat) (n : Nat) (cs : List Char) : Prop :=
  Along (movedBy (early ++ bytesColumns n cs)) (Respelled (movedBy (early ++ bytesColumns n cs)))
    (scan (n + 7 * early.length) (expandBytes cs)) (scan n cs)

theorem movedBy_start (hearly : ∀ q ∈ early, q < n) (cs : List Char) :
    movedBy (early ++ bytesColumns n cs) n = n + 7 * early.length :=
  movedBy_append hearly fun _ hq => (lt_of_mem_bytesColumns hq).1.le

theorem AlongScan.blank {c : Char} (hc : isBlank c = true) (h : AlongScan early (n + c.utf8Size) cs) :
    AlongScan early n (c :: cs) := by
  have hne : c ≠ ':' := by
    rintro rfl
    exact absurd hc (by decide)
  rw [AlongScan, expandBytes_cons_of_ne hne, bytesColumns_cons_of_ne hne]
  rw [scan, if_pos hc, scan, if_pos hc, Nat.add_right_comm]
  exact h

theorem AlongScan.mark {c : Char} {x : Lexeme} (hearly : ∀ q ∈ early, q < n)
    (hkeep : ¬ StartsBytes (c :: cs)) (hc : mark? c = some x)
    (h : AlongScan early (n + c.utf8Size) cs) : AlongScan early n (c :: cs) := by
  have hmove := movedBy_start hearly (c :: cs)
  rw [AlongScan, Nat.add_right_comm, ← bytesColumns_keep n hkeep] at h
  rw [AlongScan, expandBytes_keep hkeep, scan_mark hc, scan_mark hc]
  refine h.map fun ts' ts hts => ?_
  rw [← hmove]
  exact .keep x n hts

theorem AlongScan.word {w : List Char} (hearly : ∀ q ∈ early, q < n)
    (hw : isWord (String.ofList w) = true) (hcolon : ':' ∉ w)
    (h : AlongScan early (n + width (w ++ cs.takeWhile isWordPart)) (cs.dropWhile isWordPart)) :
    AlongScan early n (w ++ cs) := by
  have hmove := movedBy_start hearly (w ++ cs)
  rw [AlongScan, width_append, ← Nat.add_assoc, ← bytesColumns_takeWhile,
    ← bytesColumns_append n hcolon] at h
  rw [AlongScan, expandBytes_append_of_not_mem hcolon, scan_word_append hw, scan_word_append hw,
    takeWhile_expandBytes_of_colon (by decide), dropWhile_expandBytes_of_colon (by decide), width_append,
    ← Nat.add_assoc, ← Nat.add_assoc]
  rw [Nat.add_right_comm, Nat.add_right_comm n] at h
  refine h.map fun ts' ts hts => ?_
  rw [← hmove]
  exact .keep _ n hts

theorem AlongScan.bytes {after : List Char} (hearly : ∀ q ∈ early, q < n) (hends : endsWord after = true)
    (h : AlongScan (early ++ [n + 1]) (n + 6 + width (after.takeWhile isWordPart))
      (after.dropWhile isWordPart)) :
    AlongScan early n (":bytes".toList ++ after) := by
  generalize hmore : after.takeWhile isWordPart = more at h
  have hhead : ∀ c ∈ more.head?, c = '<' ∨ c = '>' := by
    rw [← hmore]
    exact head?_of_endsWord hends
  have hmove := movedBy_start hearly (":bytes".toList ++ after)
  have hmove' : movedBy (early ++ bytesColumns n (":bytes".toList ++ after)) (n + 1) =
      n + 7 * early.length + 1 := by
    rw [movedBy_append (fun q hq => Nat.lt_succ_of_lt (hearly q hq))
      fun q hq => (lt_of_mem_bytesColumns hq).1, Nat.add_right_comm]
  -- the colon and the word behind it, as it was and written out
  have hscan : scan n (":bytes".toList ++ after) =
      (scan (n + 6 + width more) (after.dropWhile isWordPart)).map
        fun ts => ⟨.colon, n⟩ :: ⟨.word (String.ofList ("bytes".toList ++ more)), n + 1⟩ :: ts := by
    show scan n (':' :: ("bytes".toList ++ after)) = _
    rw [scan_mark (x := .colon) rfl, scan_word_append (by decide), hmore, width_append,
      show width "bytes".toList = 5 by decide, ← Nat.add_assoc]
    exact map_map _ _ _
  have hscan' (m : Nat) : scan m (":vector<byte>".toList ++ expandBytes after) =
      (scan (m + 13 + width more) (expandBytes (after.dropWhile isWordPart))).map
        fun ts => ⟨.colon, m⟩ ::
          ⟨.word (String.ofList ("vector<byte>".toList ++ more)), m + 1⟩ :: ts := by
    show scan m (':' :: ("vector<byte>".toList ++ expandBytes after)) = _
    rw [scan_mark (x := .colon) rfl, scan_word_append (by decide),
      takeWhile_expandBytes_of_colon (by decide), dropWhile_expandBytes_of_colon (by decide), hmore,
      width_append, show width "vector<byte>".toList = 12 by decide, ← Nat.add_assoc]
    exact map_map _ _ _
  have hcolumns : early ++ bytesColumns n (":bytes".toList ++ after) =
      (early ++ [n + 1]) ++ bytesColumns (n + 6 + width more) (after.dropWhile isWordPart) := by
    rw [bytesColumns_bytes n hends, bytesColumns_takeWhile, hmore, List.append_assoc,
      List.singleton_append]
  have hstart : n + 7 * early.length + 13 + width more =
      n + 6 + width more + 7 * (early ++ [n + 1]).length := by
    rw [List.length_append, List.length_singleton]
    omega
  rw [AlongScan, ← hcolumns, ← hstart] at h
  rw [AlongScan, expandBytes_bytes hends, hscan, hscan']
  refine h.map fun ts' ts hts => ?_
  rw [← hmove', ← hmove]
  exact .bytes n more hhead hts

/-- Writing `bytes` out respells the tokens of a text and moves their columns. -/
theorem alongScan (hearly : ∀ q ∈ early, q < n) (cs : List Char) : AlongScan early n cs := by
  induction hlen : cs.length using Nat.strong_induction_on generalizing cs n early with
  | _ k ih =>
    subst hlen
    have hdrop (ds : List Char) : (ds.dropWhile isWordPart).length ≤ ds.length :=
      (List.dropWhile_suffix isWordPart).length_le
    cases cs with
    | nil =>
      rw [AlongScan, expandBytes, scan, scan]
      exact .nil
    | cons c cs =>
      by_cases hbytes : StartsBytes (c :: cs)
      · obtain ⟨after, hafter, hends⟩ := hbytes
        have hlt : (after.dropWhile isWordPart).length < (c :: cs).length := by
          rw [hafter, List.length_append]
          exact Nat.lt_of_le_of_lt (hdrop after) (Nat.lt_add_of_pos_left (by decide))
        rw [hafter]
        refine .bytes hearly hends (ih _ hlt ?_ _ rfl)
        rw [List.forall_mem_append, List.forall_mem_singleton]
        exact ⟨fun q hq => by have := hearly q hq; omega, by omega⟩
      have hrest : AlongScan early (n + c.utf8Size) cs :=
        ih _ (Nat.lt_succ_self _) (fun q hq => Nat.lt_add_right _ (hearly q hq)) cs rfl
      by_cases hblank : isBlank c = true
      · exact hrest.blank hblank
      cases hmark : mark? c with
      | some x => exact hrest.mark hearly hbytes hmark
      | none =>
        by_cases hstart : isWordStart c = true
        · have hword : isWord (String.ofList [c]) = true := by
            rw [isWord, String.toList_ofList, Bool.and_eq_true]
            exact ⟨hstart, by simp [isWordPart_of_isWordStart hstart]⟩
          have hcolon : ':' ∉ [c] := by
            rw [List.mem_singleton]
            rintro rfl
            exact absurd hstart (by decide)
          exact .word (w := [c]) hearly hword hcolon
            (ih _ (Nat.lt_succ_of_le (hdrop cs)) (fun q hq => Nat.lt_add_right _ (hearly q hq)) _ rfl)
        · have hno : isStart c = false := by simp [isStart, hblank, hmark, hstart]
          rw [AlongScan, expandBytes_keep hbytes, scan_unreadable hno, scan_unreadable hno]
          exact (movedBy_start hearly _).symm

end Token

/-! ### Signatures -/

namespace Signature
variable {move : Nat → Nat} {ts ts' : List Token} {e : Nat}

/-- Behind the word `bytes`, brackets pair up as they do behind what is written out for it. -/
theorem isBalanced_bytes {more : List Char} (hmore : ∀ c ∈ more.head?, c = '<' ∨ c = '>') :
    isBalanced (String.ofList ("vector<byte>".toList ++ more)) =
      isBalanced (String.ofList ("bytes".toList ++ more)) := by
  have hchars (cs : List Char) : isBalanced (String.ofList cs) =
      (closes 0 cs && (!cs.contains '<' || cs.getLast? == some '>')) := by
    rw [isBalanced, String.toList_ofList]
  have hopens : closes 0 ("vector<byte>".toList ++ more) = closes 0 more := by
    show closes 0 ("vector".toList ++ '<' :: ("byte".toList ++ '>' :: more)) = _
    rw [closes_append (by decide) (by decide)]
    show closes 1 ("byte".toList ++ '>' :: more) = _
    rw [closes_append (by decide) (by decide)]
    rfl
  rw [hchars, hchars, hopens, closes_append (by decide) (by decide)]
  cases more with
  | nil => decide
  | cons c more =>
    rcases hmore c rfl with rfl | rfl
    · simp
    · simp [closes]

theorem column_missing (h : Respelled move ts' ts) (what : Expectation) (e : Nat) :
    (missing what (move e) ts').column = move (missing what e ts).column := by
  cases h <;> rfl

theorem along_parseResult (h : Respelled move ts' ts) (e : Nat) :
    Along move (fun _ _ => True) (parseResult (move e) ts') (parseResult e ts) := by
  cases h with
  | nil => exact column_missing .nil _ e
  | bytes column more hmore h => exact column_missing (.bytes column more hmore h) _ e
  | keep x column h =>
    cases x with
    | word result =>
      unfold parseResult
      dsimp only
      split_ifs with hbalanced
      · -- a semicolon and nothing behind it, or else a fault
        cases h with
        | nil => exact column_missing .nil .semicolon e
        | bytes column more hmore h => exact column_missing (.bytes column more hmore h) .semicolon e
        | keep x column h =>
          cases x with
          | semicolon =>
            cases h with
            | nil => trivial
            | bytes column more hmore h => exact column_missing (.bytes column more hmore h) .lineEnd e
            | keep x column h => exact column_missing (.keep x column h) .lineEnd e
          | _ => exact column_missing (.keep _ column h) .semicolon e
      · rfl
    | _ => exact column_missing (.keep _ column h) .resultType e

/-- The fields have the columns of others, moved. -/
def MovedFields (move : Nat → Nat) (fs' fs : List FieldSpec) : Prop :=
  fs'.map (·.column) = fs.map fun f => move f.column

/-- The type of a field may be spelled differently, and is a type all the same. -/
theorem respelled_type {column typeColumn : Nat} {type : String}
    (h : Respelled move ts' (⟨.colon, column⟩ :: ⟨.word type, typeColumn⟩ :: ts)) :
    ∃ type' us, ts' = ⟨.colon, move column⟩ :: ⟨.word type', move typeColumn⟩ :: us ∧
      isBalanced type' = isBalanced type ∧ Respelled move us ts := by
  cases h with
  | bytes column more hmore h => exact ⟨_, _, rfl, isBalanced_bytes hmore, h⟩
  | keep x column h =>
    cases h with
    | keep x column h => exact ⟨_, _, rfl, rfl, h⟩

theorem along_parseFields (h : Respelled move ts' ts) (e : Nat) :
    Along move (fun r' r => MovedFields move r'.1 r.1) (parseFields (move e) ts') (parseFields e ts) := by
  fun_induction parseFields e ts generalizing ts' with
  | case1 column rest =>
    cases h with
    | keep x column h => exact (along_parseResult h e).map fun _ _ _ => rfl
  | case2 name column hid _ type typeColumn rest hbalanced ih =>
    cases h with
    | keep x column h =>
      obtain ⟨type', us, rfl, heq, hrest⟩ := respelled_type h
      rw [hbalanced] at heq
      simp only [parseFields, hid, heq, if_true]
      refine (ih hrest).map fun r' r hr => ?_
      exact congrArg (move column :: ·) hr
  | case3 name column hid _ type typeColumn rest hbalanced =>
    cases h with
    | keep x column h =>
      obtain ⟨type', us, rfl, heq, hrest⟩ := respelled_type h
      rw [Bool.not_eq_true] at hbalanced
      rw [hbalanced] at heq
      simp only [parseFields, hid, heq, if_true, Bool.false_eq_true, if_false]
      rfl
  | case4 name column hid colonColumn rest hno =>
    cases h with
    | keep x column h =>
      cases h with
      | bytes column more hmore h => exact absurd rfl (hno _ _ _)
      | keep x column h =>
        unfold parseFields
        dsimp only
        rw [if_pos hid]
        cases h with
        | nil => exact column_missing .nil .fieldType e
        | bytes column more hmore h => exact column_missing (.bytes column more hmore h) .fieldType e
        | keep x column h =>
          cases x with
          | word type => exact absurd rfl (hno _ _ _)
          | _ => exact column_missing (.keep _ column h) .fieldType e
  | case5 name column hid rest hno hno' =>
    cases h with
    | keep x column h =>
      unfold parseFields
      dsimp only
      rw [if_pos hid]
      cases h with
      | nil => exact column_missing .nil .colon e
      | bytes column more hmore h => exact absurd rfl (hno' _ _)
      | keep x column h =>
        cases x with
        | colon => exact absurd rfl (hno' _ _)
        | _ => exact column_missing (.keep _ column h) .colon e
  | case6 name column rest hid =>
    cases h with
    | keep x column h =>
      unfold parseFields
      dsimp only
      rw [if_neg hid]
      rfl
  | case7 ts hno hno' =>
    cases h with
    | nil => exact column_missing .nil _ e
    | bytes column more hmore h => exact column_missing (.bytes column more hmore h) _ e
    | keep x column h =>
      cases x with
      | equals => exact absurd rfl (hno _ _)
      | word name => exact absurd rfl (hno' _ _ _)
      | _ => exact column_missing (.keep _ column h) .fieldNameOrEquals e

theorem along_ofRow (h : Respelled move ts' ts) (e : Nat) :
    Along move (fun s' s => MovedFields move s'.fields s.fields)
      (ofRow ⟨ts', move e⟩) (ofRow ⟨ts, e⟩) := by
  cases h with
  | nil => exact column_missing .nil .declarationName e
  | bytes column more hmore h => exact column_missing (.bytes column more hmore h) .declarationName e
  | keep x column h =>
    cases x with
    | word name =>
      unfold ofRow
      dsimp only
      split_ifs
      · exact (along_parseFields h e).map fun _ _ hr => hr
      · rfl
    | _ => exact column_missing (.keep _ column h) .declarationName e

/-- What a line with `bytes` written out is read as has the columns of the line as it was, moved. -/
theorem along_parse (line : String) :
    Along (movedBy (bytesColumns 1 line.toList))
      (fun s' s => MovedFields (movedBy (bytesColumns 1 line.toList)) s'.fields s.fields)
      (parse (expandLine line)) (parse line) := by
  have hscan : Token.AlongScan [] 1 line.toList := Token.alongScan (by simp) line.toList
  rw [Token.AlongScan, List.nil_append, List.length_nil, Nat.mul_zero, Nat.add_zero] at hscan
  have hend : Token.width (expandBytes line.toList) + 1 =
      movedBy (bytesColumns 1 line.toList) (Token.width line.toList + 1) := by
    have hbefore : ∀ q ∈ bytesColumns 1 line.toList, q < Token.width line.toList + 1 := by
      intro q hq
      have := lt_of_mem_bytesColumns hq
      omega
    rw [← List.append_nil (bytesColumns 1 line.toList), movedBy_append hbefore (by simp),
      width_expandBytes 1, Nat.add_right_comm]
  have hrow : Along (movedBy (bytesColumns 1 line.toList))
      (fun row' row => Respelled (movedBy (bytesColumns 1 line.toList)) row'.tokens row.tokens ∧
        row'.endColumn = movedBy (bytesColumns 1 line.toList) row.endColumn)
      (TokenRow.ofLine (expandLine line)) (TokenRow.ofLine line) := by
    rw [TokenRow.ofLine, TokenRow.ofLine, expandLine, String.toList_ofList, hend]
    exact hscan.map fun ts' ts hts => ⟨hts, rfl⟩
  rw [parse, parse]
  refine hrow.bind ?_
  rintro ⟨ts', _⟩ ⟨ts, e⟩ ⟨hts, rfl⟩
  exact along_ofRow hts e

end Signature

/-! ### Blocks -/

namespace Reading

/-- The line of a declaration and the columns of its fields. -/
def fieldColumns? : Reading → Option (Nat × List Nat)
  | item (.declaration decl) => some (decl.line, decl.fields.map (·.column))
  | _ => none

/-- The line and the column of a fault. -/
def faultColumn? : Reading → Option (Nat × Nat)
  | malformed line fault => some (line, fault.column)
  | _ => none

/-- The columns that a reading reports. -/
def columns : Reading → List Nat
  | item (.declaration decl) => decl.fields.map (·.column)
  | malformed _ fault => [fault.column]
  | _ => []

/-- The same places are reported. -/
def SamePlaces (r' r : Reading) : Prop :=
  r'.fieldColumns? = r.fieldColumns? ∧ r'.faultColumn? = r.faultColumn?

/-- The places of one reading are those of the other with their columns moved. -/
def MovedPlaces (move : Nat → Nat) (r' r : Reading) : Prop :=
  r'.fieldColumns? = r.fieldColumns?.map (fun p => (p.1, p.2.map move)) ∧
    r'.faultColumn? = r.faultColumn?.map (fun p => (p.1, move p.2))

theorem MovedPlaces.samePlaces_iff {move : Nat → Nat} {r' r : Reading} (h : MovedPlaces move r' r) :
    SamePlaces r' r ↔ ∀ column ∈ r.columns, move column = column := by
  rw [SamePlaces, h.1, h.2]
  cases r with
  | item i =>
    cases i with
    | declaration decl => simp [fieldColumns?, faultColumn?, columns]
    | union name description line => simp [fieldColumns?, faultColumn?, columns]
  | malformed line fault => simp [fieldColumns?, faultColumn?, columns]
  | comment line => simp [fieldColumns?, faultColumn?, columns]
  | scalar line text => simp [fieldColumns?, faultColumn?, columns]

end Reading

namespace Block

/-- The columns where `bytes` is written out in the declaration line. -/
def declarationBytes (b : Block) : List Nat :=
  b.declarationLine?.elim [] fun l => bytesColumns 1 l.text.toList

/-- Reading a block in which `bytes` was written out reports other columns, and otherwise the same. -/
theorem movedPlaces_expand (b : Block) :
    Reading.MovedPlaces (movedBy b.declarationBytes) b.expand.read b.read := by
  unfold read declarationBytes
  rw [declarationLine?_expand]
  cases b.declarationLine? with
  | none =>
    dsimp only [Option.map_none]
    rw [docs_expand, DocTags.get?_writtenOut]
    cases b.docs.get? "class" with
    | none => exact ⟨rfl, rfl⟩
    | some name => exact ⟨rfl, rfl⟩
  | some l =>
    have hparse := Signature.along_parse l.text
    dsimp only [Option.map_some, Option.elim_some]
    rw [declaresScalar_expandLine]
    split_ifs
    · exact ⟨rfl, rfl⟩
    · cases h' : Signature.parse (expandLine l.text) <;> cases h : Signature.parse l.text <;>
        rw [h', h] at hparse
      · exact ⟨rfl, congrArg (fun column => some (l.number, column)) hparse⟩
      · exact hparse.elim
      · exact hparse.elim
      · refine ⟨congrArg (fun columns => some (l.number, columns)) ?_, rfl⟩
        rw [List.map_map]
        exact hparse

/-- How a block in which `bytes` was written out compares with the block as it was. -/
structure ShowsBytes (b' b : Block) : Prop where
  /-- The tags have the same keys, and `bytes` is written out in their texts. -/
  docs : ∀ key, b'.docs.get? key = (b.docs.get? key).map expandLine
  /-- So the documentation is the same if there is none to write out in it. -/
  docs_iff : (∀ key, b'.docs.get? key = b.docs.get? key) ↔
    ∀ key text, b.docs.get? key = some text → ¬ HasBytes text.toList
  places : Reading.MovedPlaces (movedBy b.declarationBytes) b'.read b.read
  /-- And the same columns are reported if none is written out before them. -/
  places_iff : Reading.SamePlaces b'.read b.read ↔ ∀ l, b.declarationLine? = some l →
    ∀ before after, l.text.toList = before ++ (":bytes".toList ++ after) → endsWord after = true →
      ∀ column ∈ b.read.columns, column ≤ Token.width before + 2

theorem showsBytes_expand (b : Block) : ShowsBytes b.expand b where
  docs key := by rw [docs_expand, DocTags.get?_writtenOut]
  docs_iff := by
    refine forall_congr' fun key => ?_
    rw [docs_expand, DocTags.get?_writtenOut]
    cases b.docs.get? key with
    | none => simp
    | some text =>
      simp only [Option.map_some, Option.some_inj, forall_eq']
      rw [← expandBytes_eq_self_iff, expandLine, ← String.toList_inj, String.toList_ofList]
  places := movedPlaces_expand b
  places_iff := by
    rw [(movedPlaces_expand b).samePlaces_iff]
    simp only [movedBy_eq_self_iff, declarationBytes]
    cases b.declarationLine? with
    | none => simp
    | some l =>
      simp only [Option.elim_some, Option.some_inj, forall_eq', mem_bytesColumns_iff]
      constructor
      · intro h before after hcut hends column hcolumn
        have hle := h column hcolumn _ ⟨before, after, hcut, hends, rfl⟩
        omega
      · rintro h column hcolumn _ ⟨before, after, hcut, hends, rfl⟩
        have hle := h before after hcut hends column hcolumn
        omega

/-- Every block of a schema is read with `bytes` written out. Its documentation is that of the lines as
they are written exactly if no text of a tag has a `:bytes` that ends a word, and the columns are theirs
exactly if there is no such `:bytes` before them in the declaration line. -/
theorem split_showsBytes (text : String) :
    List.Forall₂ ShowsBytes (split text) (group [] (number 1 (Text.lines text))) := by
  rw [split, List.forall₂_map_left_iff, List.forall₂_same]
  exact fun b _ => showsBytes_expand b

/-- A comment that spells a field in which `bytes` is the type is rewritten, and so is the declaration, in
which the second field moves. -/
theorem bytes_shows :
    (¬ ∀ text, List.Forall₂ (fun b' b => ∀ key, b'.docs.get? key = b.docs.get? key) (split text)
      (group [] (number 1 (Text.lines text)))) ∧
    ¬ ∀ text, List.Forall₂ (fun b' b => Reading.SamePlaces b'.read b.read) (split text)
      (group [] (number 1 (Text.lines text))) := by
  have hmap {α : Type} {text : String} {f : Block → α}
      (h : List.Forall₂ (fun b' b => f b' = f b) (split text) (group [] (number 1 (Text.lines text)))) :
      (split text).map f = (group [] (number 1 (Text.lines text))).map f := by
    rw [← List.forall₂_eq_eq_eq, List.forall₂_map_left_iff, List.forall₂_map_right_iff]
    exact h
  constructor
  · intro h
    have hdocs := hmap
      ((h "//@description The data:bytes of a file\nfile data:bytes size:int32 = File;\n").imp
        fun _ _ hdocs => hdocs "description")
    exact absurd hdocs (by decide +kernel)
  · intro h
    have hplaces := hmap
      ((h "//@description The data:bytes of a file\nfile data:bytes size:int32 = File;\n").imp
        fun _ _ hplaces => hplaces.1)
    exact absurd hplaces (by decide +kernel)

end Block

end TypeLang
