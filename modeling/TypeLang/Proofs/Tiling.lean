import TypeLang.Proofs.Grammar

/-! # Tokens tile their line

The tokens of a line and the blanks between them leave nothing of it out. `TokenRow.Tiles` says this
by the bytes of the line: each token is a slice of it, the slices follow each other, all else is blank,
and no word could go on. A line has a row of tokens exactly if a row tiles it, and then it is this one;
otherwise the fault shows the first character that nothing covers (`tiles_iff_ofLine`).

`Laid` is the same for the rest of a line behind some text, so that tokens can be taken off its front
one by one. Whether a character is covered is told from what stands before it: a blank and a mark
always are, and any other if a word ends with it (`Token.Covered`). The scanner never stands inside a
word (`Token.Seam`), so what it cannot read is not covered. -/

namespace TypeLang

open Text

/-! ### Slices -/

/-- `piece` is what `text` holds from the byte `start` on, and both of its ends lie between
characters. -/
structure IsSlice (text : String) (start : Nat) (piece : String) : Prop where
  isValid_start : String.Pos.Raw.IsValid text ⟨start⟩
  isValid_stop : String.Pos.Raw.IsValid text ⟨start + piece.utf8ByteSize⟩
  bytes : text.toByteArray.extract start (start + piece.utf8ByteSize) = piece.toByteArray

section Slices
variable {a b c d text piece : String} {start : Nat}

/-- Of two cuts through a text, the one further right leaves something between them. -/
theorem exists_between (h : a ++ b = c ++ d) (hle : a.utf8ByteSize ≤ c.utf8ByteSize) :
    ∃ mid, c = a ++ mid ∧ b = mid ++ d := by
  have hchars := congrArg String.toList h
  rw [String.toList_append, String.toList_append, List.append_eq_append_iff] at hchars
  rcases hchars with ⟨mid, hc, hb⟩ | ⟨mid, ha, hd⟩
  · refine ⟨String.ofList mid, String.toList_inj.mp ?_, String.toList_inj.mp ?_⟩ <;> simp [hc, hb]
  · have hsize : a.utf8ByteSize = c.utf8ByteSize + (String.ofList mid).utf8ByteSize := by
      rw [← String.utf8ByteSize_append]
      exact congrArg _ (String.toList_inj.mp (by simp [ha]))
    obtain rfl : mid = [] := by
      simpa using String.utf8ByteSize_eq_zero_iff.mp (by omega : (String.ofList mid).utf8ByteSize = 0)
    refine ⟨"", ?_, ?_⟩
    · rw [String.append_empty]
      exact String.toList_inj.mp (by simp [ha])
    · rw [String.empty_append]
      exact String.toList_inj.mp (by simp [hd])

theorem append_inj_of_utf8ByteSize_eq (h : a ++ b = c ++ d) (hsize : a.utf8ByteSize = c.utf8ByteSize) :
    a = c ∧ b = d := by
  obtain ⟨mid, rfl, rfl⟩ := exists_between h hsize.le
  rw [String.utf8ByteSize_append] at hsize
  obtain rfl : mid = "" := String.utf8ByteSize_eq_zero_iff.mp (by omega)
  exact ⟨String.append_empty.symm, String.empty_append⟩

theorem isSlice_iff :
    IsSlice text start piece ↔ ∃ before after, text = before ++ piece ++ after ∧
      start = before.utf8ByteSize := by
  have hmiddle : ∀ before mid after : String, (before ++ mid ++ after).toByteArray.extract
      before.utf8ByteSize (before.utf8ByteSize + mid.utf8ByteSize) = mid.toByteArray := by
    intro before mid after
    rw [String.toByteArray_append, String.toByteArray_append, ByteArray.extract_append,
      ByteArray.extract_append_eq_right String.size_toByteArray.symm (by simp)]
    simp
  constructor
  · rintro ⟨hstart, hstop, hbytes⟩
    obtain ⟨before, rest, rfl, hbefore⟩ := String.Pos.Raw.isValid_iff_exists_append.mp hstart
    obtain ⟨upto, after, heq, hupto⟩ := String.Pos.Raw.isValid_iff_exists_append.mp hstop
    obtain rfl : start = before.utf8ByteSize := congrArg String.Pos.Raw.byteIdx hbefore
    have hsize : before.utf8ByteSize + piece.utf8ByteSize = upto.utf8ByteSize :=
      congrArg String.Pos.Raw.byteIdx hupto
    obtain ⟨mid, rfl, rfl⟩ := exists_between heq (by omega)
    rw [String.utf8ByteSize_append, Nat.add_left_cancel_iff] at hsize
    rw [heq, hsize, hmiddle] at hbytes
    rw [heq, String.toByteArray_inj.mp hbytes]
    exact ⟨before, after, rfl, rfl⟩
  · rintro ⟨before, after, rfl, rfl⟩
    refine ⟨?_, ?_, hmiddle before piece after⟩
    · exact String.Pos.Raw.isValid_iff_exists_append.mpr
        ⟨before, piece ++ after, String.append_assoc .., rfl⟩
    · exact String.Pos.Raw.isValid_iff_exists_append.mpr
        ⟨before ++ piece, after, rfl, by rw [← String.utf8ByteSize_append]; rfl⟩

end Slices

namespace Token

/-- The byte of the line where the token starts. -/
def start (t : Token) : Nat := t.column - 1

/-- The byte of the line behind the token. -/
def stop (t : Token) : Nat := t.start + t.lexeme.text.utf8ByteSize

end Token

/-- The row and the line fit: the tokens are slices of the line, one behind the other, with nothing but
blanks around them, and the words are as long as they can be. -/
structure TokenRow.Tiles (row : TokenRow) (text : String) : Prop where
  column_pos : ∀ t ∈ row.tokens, 0 < t.column
  slice : ∀ t ∈ row.tokens, IsSlice text t.start t.lexeme.text
  proper : ∀ t ∈ row.tokens, t.lexeme.Proper ∧ t.lexeme.text ≠ ""
  ordered : row.tokens.Pairwise fun t u => t.column < u.column ∧ t.stop ≤ u.start
  blank : ∀ before c after, text.toList = before ++ c :: after → isBlank c = true ∨
    ∃ t ∈ row.tokens, t.start ≤ Token.width before ∧ Token.width before < t.stop
  maximal : ∀ t ∈ row.tokens, ∀ w, t.lexeme = .word w → ∀ before c after,
    text.toList = before ++ c :: after → Token.width before = t.stop → Token.isWordPart c = false
  endColumn : row.endColumn = text.utf8ByteSize + 1

namespace Token

/-- The last characters are a word. -/
def EndsInWord (cs : List Char) : Prop := ∃ early w, cs = early ++ w ∧ isWord (String.ofList w) = true

/-- A character that stands behind `before` is a blank, a mark, or in a word. -/
def Covered (before : List Char) (c : Char) : Prop :=
  isBlank c = true ∨ (mark? c).isSome = true ∨ EndsInWord (before ++ [c])

/-- What stands at the byte `offset` starts with the first character of the text that is not covered,
and goes on up to the next one that a token or a blank may start with. -/
structure FirstUncovered (text : String) (offset : Nat) (shown : String) : Prop where
  slice : IsSlice text offset shown
  ne_empty : shown ≠ ""
  covered : ∀ before c after, text.toList = before ++ c :: after → width before < offset →
    Covered before c
  uncovered : ∀ before c after, text.toList = before ++ c :: after → width before = offset →
    ¬ Covered before c
  starts : ∀ c ∈ shown.toList, isStart c = false
  maximal : ∀ before c after, text.toList = before ++ c :: after →
    width before = offset + shown.utf8ByteSize → isStart c = true

end Token

/-! ### Rows that tile -/

theorem Lexeme.Proper.text_ne {x : Lexeme} (h : x.Proper) : x.text ≠ "" := by
  cases x with
  | word w =>
    rintro rfl
    cases h
  | _ => decide

/-- The tokens tile what stands behind `before`. -/
structure Laid (before text : String) (ts : List Token) : Prop where
  stands : ∀ t ∈ ts, ∃ gap rest, text = gap ++ t.lexeme.text ++ rest ∧
    t.column = (before ++ gap).utf8ByteSize + 1 ∧ t.lexeme.EndsBefore rest
  proper : ∀ t ∈ ts, t.lexeme.Proper
  ordered : ts.Pairwise fun t u => t.stop ≤ u.start
  blank : ∀ gap c rest, text = gap ++ String.singleton c ++ rest → isBlank c = true ∨
    ∃ t ∈ ts, t.start ≤ (before ++ gap).utf8ByteSize ∧ (before ++ gap).utf8ByteSize < t.stop

section Laid
variable {before text gap rest : String} {t : Token} {ts : List Token}

theorem Token.start_of_column (h : t.column = (before ++ gap).utf8ByteSize + 1) :
    t.start = (before ++ gap).utf8ByteSize ∧
      t.stop = (before ++ gap ++ t.lexeme.text).utf8ByteSize := by
  have hstart : t.start = (before ++ gap).utf8ByteSize := by
    rw [Token.start, h, Nat.add_sub_cancel]
  exact ⟨hstart, by rw [Token.stop, hstart, ← String.utf8ByteSize_append]⟩

/-- A character further left than the end of `gap` stands in it. -/
theorem mem_of_utf8ByteSize_lt {c : Char} {front back : String}
    (h : front ++ String.singleton c ++ back = gap ++ rest)
    (hlt : front.utf8ByteSize < gap.utf8ByteSize) : c ∈ gap.toList := by
  rw [String.append_assoc] at h
  obtain ⟨mid, rfl, hmid⟩ := exists_between h hlt.le
  have hchars := congrArg String.toList hmid
  rw [String.toList_append, String.toList_append, String.toList_singleton, List.singleton_append] at hchars
  cases hm : mid.toList with
  | nil =>
    rw [String.toList_eq_nil_iff.mp hm, String.append_empty] at hlt
    exact absurd hlt (Nat.lt_irrefl _)
  | cons d ds =>
    rw [hm, List.cons_append] at hchars
    rw [String.toList_append, hm, (List.cons.inj hchars).1]
    simp

theorem laid_of_scan (h : Token.scan (before.utf8ByteSize + 1) text.toList = .ok ts) :
    Laid before text ts := by
  induction ts generalizing before text with
  | nil =>
    have hgap : IsGap text := Token.scan_eq_ok_nil_iff.mp h
    refine ⟨by simp, by simp, .nil, ?_⟩
    rintro gap c rest rfl
    exact .inl (hgap c (by simp))
  | cons t ts ih =>
    obtain ⟨gap, rest, rfl, hgap, hproper, hends, hcolumn, hscan⟩ := Token.scan_eq_ok_cons_iff.mp h
    obtain ⟨hstart, hstop⟩ := Token.start_of_column hcolumn
    have hrest := ih hscan
    refine ⟨?_, List.forall_mem_cons.mpr ⟨hproper, hrest.proper⟩,
      List.pairwise_cons.mpr ⟨fun u hu => ?_, hrest.ordered⟩, fun front c back heq => ?_⟩
    · refine List.forall_mem_cons.mpr ⟨⟨gap, rest, rfl, hcolumn, hends⟩, fun u hu => ?_⟩
      obtain ⟨gap', rest', rfl, hcolumn', hends'⟩ := hrest.stands u hu
      refine ⟨gap ++ t.lexeme.text ++ gap', rest', by simp only [String.append_assoc], ?_, hends'⟩
      rw [hcolumn']
      simp only [String.append_assoc]
    · obtain ⟨gap', rest', rfl, hcolumn', -⟩ := hrest.stands u hu
      rw [hstop, (Token.start_of_column hcolumn').1, String.utf8ByteSize_append (t := gap')]
      omega
    · -- the character is in the gap, in the token or behind it
      rcases Nat.lt_or_ge front.utf8ByteSize gap.utf8ByteSize with hlt | hge
      · exact .inl (hgap c (mem_of_utf8ByteSize_lt (heq.symm.trans String.append_assoc) hlt))
      · rcases Nat.lt_or_ge front.utf8ByteSize (gap ++ t.lexeme.text).utf8ByteSize with hlt | hge'
        · refine .inr ⟨t, List.mem_cons_self, ?_, ?_⟩
          · rw [hstart, String.utf8ByteSize_append, String.utf8ByteSize_append]
            omega
          · rw [hstop, String.append_assoc, String.utf8ByteSize_append, String.utf8ByteSize_append]
            omega
        · obtain ⟨mid, rfl, hmid⟩ := exists_between (heq.trans String.append_assoc) hge'
          rw [← String.append_assoc] at hmid
          refine (hrest.blank mid c back hmid).imp id fun ⟨u, hu, hcover⟩ => ?_
          refine ⟨u, List.mem_cons_of_mem t hu, ?_⟩
          simpa only [String.append_assoc] using hcover

theorem scan_of_laid (h : Laid before text ts) :
    Token.scan (before.utf8ByteSize + 1) text.toList = .ok ts := by
  induction ts generalizing before text with
  | nil =>
    refine Token.scan_eq_ok_nil_iff.mpr fun c hc => ?_
    obtain ⟨cs, ds, hcs⟩ := List.append_of_mem hc
    have htext : text = String.ofList cs ++ String.singleton c ++ String.ofList ds :=
      String.toList_inj.mp (by simp [hcs])
    exact (h.blank _ c _ htext).resolve_right (by simp)
  | cons t ts ih =>
    obtain ⟨gap, rest, rfl, hcolumn, hends⟩ := h.stands t List.mem_cons_self
    obtain ⟨hstart, hstop⟩ := Token.start_of_column hcolumn
    obtain ⟨hfirst, hordered⟩ := List.pairwise_cons.mp h.ordered
    refine Token.scan_eq_ok_cons_iff.mpr ⟨gap, rest, rfl, fun c hc => ?_, h.proper t List.mem_cons_self,
      hends, hcolumn, ih ⟨fun u hu => ?_, fun u hu => h.proper u (List.mem_cons_of_mem t hu), hordered,
        fun front c back heq => ?_⟩⟩
    · -- what stands in front of the first token is in none
      obtain ⟨cs, ds, hcs⟩ := List.append_of_mem hc
      obtain rfl : gap = String.ofList cs ++ String.singleton c ++ String.ofList ds :=
        String.toList_inj.mp (by simp [hcs])
      have hpos := c.utf8Size_pos
      have hblank := h.blank (String.ofList cs) c (String.ofList ds ++ t.lexeme.text ++ rest)
        (by simp only [String.append_assoc])
      refine hblank.resolve_right ?_
      simp only [String.utf8ByteSize_append, String.utf8ByteSize_singleton] at hstart hstop ⊢
      rintro ⟨u, hu, hle, -⟩
      rcases List.mem_cons.mp hu with rfl | hu
      · omega
      · have := hfirst u hu
        omega
    · obtain ⟨gap', rest', heq, hcolumn', hends'⟩ := h.stands u (List.mem_cons_of_mem t hu)
      have hle : (gap ++ t.lexeme.text).utf8ByteSize ≤ gap'.utf8ByteSize := by
        have hlt := hfirst u hu
        rw [hstop, (Token.start_of_column hcolumn').1] at hlt
        simp only [String.utf8ByteSize_append] at hlt ⊢
        omega
      obtain ⟨mid, rfl, rfl⟩ := exists_between (heq.trans String.append_assoc) hle
      refine ⟨mid, rest', by rw [String.append_assoc], ?_, hends'⟩
      rw [hcolumn']
      simp only [String.append_assoc]
    · have hblank := h.blank (gap ++ t.lexeme.text ++ front) c back
        (by rw [heq]; simp only [String.append_assoc])
      refine hblank.imp id fun ⟨u, hu, hcover⟩ => ?_
      rw [← String.append_assoc, ← String.append_assoc] at hcover
      rcases List.mem_cons.mp hu with rfl | hu
      · rw [hstop, String.utf8ByteSize_append (t := front)] at hcover
        omega
      · exact ⟨u, hu, hcover⟩

theorem toList_eq_iff {cs ds : List Char} {c : Char} : text.toList = cs ++ c :: ds ↔
    text = String.ofList cs ++ String.singleton c ++ String.ofList ds := by
  rw [← String.toList_inj]
  simp

theorem TokenRow.tiles_iff_laid {row : TokenRow} :
    row.Tiles text ↔ Laid "" text row.tokens ∧ row.endColumn = text.utf8ByteSize + 1 := by
  constructor
  · intro h
    refine ⟨⟨fun t ht => ?_, fun t ht => (h.proper t ht).1, h.ordered.imp And.right,
      fun front c back heq => ?_⟩, h.endColumn⟩
    · obtain ⟨gap, rest, rfl, hstart⟩ := isSlice_iff.mp (h.slice t ht)
      have hpos := h.column_pos t ht
      refine ⟨gap, rest, rfl, ?_, ?_⟩
      · rw [String.empty_append, ← hstart, Token.start]
        omega
      · cases hx : t.lexeme with
        | word w =>
          rw [Lexeme.EndsBefore, Stops]
          cases hrest : rest.toList with
          | nil => rfl
          | cons c cs =>
            refine h.maximal t ht w hx (gap ++ t.lexeme.text).toList c cs ?_ ?_
            · rw [String.toList_append, hrest]
            · rw [Token.width_toList, String.utf8ByteSize_append, ← hstart, Token.stop]
        | _ => trivial
    · have hblank := h.blank front.toList c back.toList (by rw [heq]; simp)
      simpa only [Token.width_toList, String.empty_append] using hblank
  · rintro ⟨h, hend⟩
    refine ⟨fun t ht => ?_, fun t ht => ?_, fun t ht => ⟨h.proper t ht, (h.proper t ht).text_ne⟩, ?_,
      fun before c after heq => ?_, fun t ht w hw before c after heq hwidth => ?_, hend⟩
    · obtain ⟨gap, rest, -, hcolumn, -⟩ := h.stands t ht
      omega
    · obtain ⟨gap, rest, htext, hcolumn, -⟩ := h.stands t ht
      refine isSlice_iff.mpr ⟨gap, rest, htext, ?_⟩
      rw [(Token.start_of_column hcolumn).1, String.empty_append]
    · refine h.ordered.imp_of_mem fun {t u} ht hu hle => ⟨?_, hle⟩
      -- the text of a token has a byte at least, so the next one starts further right
      have hne : t.lexeme.text.utf8ByteSize ≠ 0 :=
        mt String.utf8ByteSize_eq_zero_iff.mp (h.proper t ht).text_ne
      rw [Token.stop, Token.start, Token.start] at hle
      omega
    · have hblank := h.blank _ c _ (toList_eq_iff.mp heq)
      rwa [String.empty_append, ← Token.width_eq_utf8ByteSize] at hblank
    · obtain ⟨gap, rest, htext, hcolumn, hends⟩ := h.stands t ht
      rw [(Token.start_of_column hcolumn).2, String.empty_append, Token.width_eq_utf8ByteSize] at hwidth
      rw [toList_eq_iff, htext] at heq
      obtain ⟨-, rfl⟩ := append_inj_of_utf8ByteSize_eq (heq.trans String.append_assoc) hwidth.symm
      rw [hw, Lexeme.EndsBefore, Stops] at hends
      simpa using hends

end Laid

/-! ### Characters that nothing covers -/

namespace Token
variable {before cs ds : List Char} {c : Char} {n : Nat}

theorem endsInWord_concat :
    EndsInWord (before ++ [c]) ↔ isWordStart c = true ∨ EndsInWord before ∧ isWordPart c = true := by
  constructor
  · rintro ⟨early, w, heq, hw⟩
    rw [isWord, String.toList_ofList, Bool.and_eq_true] at hw
    rcases List.eq_nil_or_concat w with rfl | ⟨w, d, rfl⟩
    · cases hw.1
    · rw [List.concat_eq_append] at heq hw
      rw [← List.append_assoc, List.append_singleton_inj] at heq
      obtain ⟨rfl, rfl⟩ := heq
      rw [List.all_append, Bool.and_eq_true] at hw
      cases w with
      | nil => exact .inl hw.1
      | cons e w =>
        refine .inr ⟨⟨early, e :: w, rfl, ?_⟩, by simpa using hw.2.2⟩
        rw [isWord, String.toList_ofList, hw.2.1, Bool.and_true]
        exact hw.1
  · rintro (hc | ⟨⟨early, w, rfl, hw⟩, hc⟩)
    · refine ⟨before, [c], rfl, ?_⟩
      simp [isWord, hc, isWordPart_of_isWordStart hc]
    · refine ⟨early, w ++ [c], List.append_assoc .., ?_⟩
      rw [isWord, String.toList_ofList, Bool.and_eq_true] at hw ⊢
      obtain ⟨hhead, hall⟩ := hw
      cases w with
      | nil => cases hhead
      | cons e w => exact ⟨hhead, by rw [List.all_append, hall, List.all_cons, hc]; rfl⟩

/-- No word goes on from `before` into `cs`. -/
def Seam (before cs : List Char) : Prop := EndsInWord before → cs.head?.any isWordPart = false

/-- All of `cs`, behind `before`, is covered. -/
def AllCovered (before cs : List Char) : Prop :=
  ∀ early c late, cs = early ++ c :: late → Covered (before ++ early) c

theorem allCovered_nil (before : List Char) : AllCovered before [] := by
  intro early c late h
  simp at h

theorem AllCovered.cons (h : Covered before c) (hcs : AllCovered (before ++ [c]) cs) :
    AllCovered before (c :: cs) := by
  intro early d late heq
  cases early with
  | nil =>
    obtain ⟨rfl, rfl⟩ := List.cons.inj heq
    rwa [List.append_nil]
  | cons e early =>
    obtain ⟨rfl, hrest⟩ := List.cons.inj heq
    have hd := hcs early d late hrest
    rwa [List.append_assoc, List.singleton_append] at hd

theorem AllCovered.append (h : AllCovered before cs) (hds : AllCovered (before ++ cs) ds) :
    AllCovered before (cs ++ ds) := by
  induction cs generalizing before with
  | nil => rwa [List.append_nil] at hds
  | cons c cs ih =>
    refine .cons ?_ (ih ?_ ?_)
    · simpa using h [] c cs rfl
    · intro early d late heq
      have hd := h (c :: early) d late (by rw [heq]; rfl)
      rwa [← List.singleton_append, ← List.append_assoc] at hd
    · rwa [List.append_assoc, List.singleton_append]

theorem allCovered_word {w : List Char} (h : EndsInWord before) (hw : ∀ c ∈ w, isWordPart c = true) :
    AllCovered before w := by
  induction w generalizing before with
  | nil => exact allCovered_nil before
  | cons c w ih =>
    obtain ⟨hc, hw⟩ := List.forall_mem_cons.mp hw
    have hend : EndsInWord (before ++ [c]) := endsInWord_concat.mpr (.inr ⟨h, hc⟩)
    exact .cons (.inr (.inr hend)) (ih hend hw)

/-- What a scan of `cs` tells about its characters: a row of tokens covers them all, and a fault shows the
first that is not covered. -/
def Accounts (n : Nat) (before cs : List Char) : Except Fault (List Token) → Prop
  | .ok _ => AllCovered before cs
  | .error fault => ∃ early c late, cs = early ++ c :: late ∧ AllCovered before early ∧
      ¬ Covered (before ++ early) c ∧ isStart c = false ∧
      fault = ⟨n + width early, .unreadable (String.ofList (c :: late.takeWhile fun d => !isStart d))⟩

theorem Accounts.map {r : Except Fault (List Token)} (h : Accounts n before cs r)
    (f : List Token → List Token) : Accounts n before cs (r.map f) := by
  cases r with
  | ok ts => exact h
  | error fault => exact h

theorem width_append (cs ds : List Char) : width (cs ++ ds) = width cs + width ds := by
  rw [width_eq_utf8ByteSize, String.ofList_append, String.utf8ByteSize_append, ← width_eq_utf8ByteSize,
    ← width_eq_utf8ByteSize]

theorem Accounts.append {r : Except Fault (List Token)} (hds : AllCovered before ds)
    (h : Accounts (n + width ds) (before ++ ds) cs r) : Accounts n before (ds ++ cs) r := by
  cases r with
  | ok ts => exact hds.append h
  | error fault =>
    obtain ⟨early, c, late, rfl, hearly, hc, hstart, rfl⟩ := h
    refine ⟨ds ++ early, c, late, (List.append_assoc ..).symm, hds.append hearly, ?_, hstart, ?_⟩
    · rwa [List.append_assoc] at hc
    · rw [width_append, Nat.add_assoc]

theorem isWordPart_of_mark? {x : Lexeme} (h : mark? c = some x) : isWordPart c = false := by
  unfold mark? at h
  split_ifs at h with h₁ h₂ h₃
  · rw [h₁]; decide
  · rw [h₂]; decide
  · rw [h₃]; decide

theorem seam_of_not_isWordPart (hc : isWordPart c = false) (before cs : List Char) :
    Seam (before ++ [c]) cs := by
  intro hend
  rcases endsInWord_concat.mp hend with h | ⟨-, h⟩
  · rw [isWordPart_of_isWordStart h] at hc
    cases hc
  · rw [h] at hc
    cases hc

theorem accounts_scan (hseam : Seam before cs) : Accounts n before cs (scan n cs) := by
  fun_induction scan n cs generalizing before with
  | case1 => exact allCovered_nil before
  | case2 n c cs hblank ih =>
    have hpart : isWordPart c = false := by
      rw [Bool.eq_false_iff]
      intro h
      rw [TypeExpr.isBlank_of_isWordPart h] at hblank
      cases hblank
    have hcovered : AllCovered before [c] := .cons (.inl hblank) (allCovered_nil _)
    exact Accounts.append (n := n) hcovered (ih (seam_of_not_isWordPart hpart before cs))
  | case3 n c cs hblank x hmark ih =>
    have hcovered : AllCovered before [c] :=
      .cons (.inr (.inl (by rw [hmark]; rfl))) (allCovered_nil _)
    have hrest := ih (seam_of_not_isWordPart (isWordPart_of_mark? hmark) before cs)
    exact (Accounts.append (n := n) hcovered hrest).map _
  | case4 n c cs hblank hmark hstart word =>
    rename_i ih
    -- a word runs from here as far as it can, so none goes on behind it
    have hend : EndsInWord (before ++ [c]) := endsInWord_concat.mpr (.inl hstart)
    have hcovered : AllCovered before word :=
      .cons (.inr (.inr hend)) (allCovered_word hend fun d hd => List.mem_takeWhile_imp hd)
    have hseam' : Seam (before ++ word) (cs.dropWhile isWordPart) :=
      fun _ => any_head?_dropWhile isWordPart cs
    have happ := (Accounts.append (n := n) hcovered (ih hseam')).map (⟨.word (String.ofList word), n⟩ :: ·)
    rwa [List.cons_append, List.takeWhile_append_dropWhile] at happ
  | case5 n c cs hblank hmark hstart =>
    refine ⟨[], c, cs, rfl, allCovered_nil before, ?_, ?_, rfl⟩
    · rw [List.append_nil]
      rintro (h | h | h)
      · exact hblank h
      · rw [hmark] at h
        cases h
      · rcases endsInWord_concat.mp h with h | ⟨h, hpart⟩
        · exact hstart h
        · rw [Seam, List.head?_cons, Option.any_some] at hseam
          rw [hseam h] at hpart
          cases hpart
    · rw [isStart, hmark]
      simp [hblank, hstart]

theorem seam_nil (cs : List Char) : Seam [] cs := by
  rintro ⟨early, w, heq, hw⟩
  rw [List.nil_eq_append_iff] at heq
  rw [heq.2] at hw
  cases hw

theorem append_inj_of_width_eq {as bs : List Char} (h : as ++ bs = cs ++ ds)
    (hwidth : width as = width cs) : as = cs ∧ bs = ds := by
  rw [width_eq_utf8ByteSize, width_eq_utf8ByteSize] at hwidth
  have hstring : String.ofList as ++ String.ofList bs = String.ofList cs ++ String.ofList ds := by
    rw [← String.ofList_append, h, String.ofList_append]
  obtain ⟨has, hbs⟩ := append_inj_of_utf8ByteSize_eq hstring hwidth
  exact ⟨String.ofList_inj.mp has, String.ofList_inj.mp hbs⟩

theorem firstUncovered_of_accounts {text : String} {early late : List Char}
    (htext : text.toList = early ++ c :: late) (hearly : AllCovered [] early) (hc : ¬ Covered early c)
    (hstart : isStart c = false) :
    FirstUncovered text (width early) (String.ofList (c :: late.takeWhile fun d => !isStart d)) := by
  have hcut : text.toList = (early ++ c :: late.takeWhile fun d => !isStart d) ++
      late.dropWhile fun d => !isStart d := by
    rw [htext, List.append_assoc, List.cons_append, List.takeWhile_append_dropWhile]
  refine ⟨isSlice_iff.mpr ⟨String.ofList early, String.ofList (late.dropWhile fun d => !isStart d), ?_,
    width_eq_utf8ByteSize early⟩, by simp, ?_, ?_, ?_, ?_⟩
  · rw [← String.ofList_append, ← String.ofList_append, ← hcut, String.ofList_toList]
  · intro before d after heq hlt
    rw [htext] at heq
    rcases List.append_eq_append_iff.mp heq with ⟨as, rfl, -⟩ | ⟨bs, rfl, hd⟩
    · rw [width_append] at hlt
      omega
    · cases bs with
      | nil =>
        rw [List.append_nil] at hlt
        omega
      | cons e bs =>
        obtain ⟨rfl, -⟩ := List.cons.inj hd
        exact hearly before d bs rfl
  · intro before d after heq hwidth
    rw [htext] at heq
    obtain ⟨rfl, hd⟩ := append_inj_of_width_eq heq hwidth.symm
    rwa [← (List.cons.inj hd).1]
  · rw [String.toList_ofList]
    refine List.forall_mem_cons.mpr ⟨hstart, fun d hd => ?_⟩
    simpa using List.mem_takeWhile_imp hd
  · intro before d after heq hwidth
    rw [← width_toList, String.toList_ofList, ← width_append] at hwidth
    rw [hcut] at heq
    obtain ⟨-, hd⟩ := append_inj_of_width_eq heq hwidth.symm
    simpa [hd] using List.head?_dropWhile_not (fun d => !isStart d) late

end Token

theorem TokenRow.ofLine_eq_ok_iff {text : String} {row : TokenRow} :
    ofLine text = .ok row ↔ row.Tiles text := by
  obtain ⟨ts, endColumn⟩ := row
  rw [tiles_iff_laid, ofLine, Token.width_toList]
  constructor
  · intro h
    obtain ⟨us, hus, heq⟩ := exists_of_map_eq_ok h
    cases heq
    exact ⟨laid_of_scan hus, rfl⟩
  · rintro ⟨hlaid, rfl⟩
    have hts : Token.scan 1 text.toList = .ok ts := scan_of_laid hlaid
    rw [hts]
    rfl

/-- A line is cut into tokens exactly if a row of them tiles it, which is then the row that is found. It
fails exactly if some character is neither a blank nor a mark nor in a word, and the fault shows the first
such character with all that follow it up to the next possible start. -/
theorem TokenRow.tiles_iff_ofLine (text : String) :
    (∀ row, ofLine text = .ok row ↔ row.Tiles text) ∧
    ((∃ fault, ofLine text = .error fault) ↔
      ∃ before c after, text.toList = before ++ c :: after ∧ ¬ Token.Covered before c) ∧
    ∀ fault, ofLine text = .error fault →
      ∃ offset shown, fault = ⟨offset + 1, .unreadable shown⟩ ∧
        Token.FirstUncovered text offset shown := by
  refine ⟨fun row => ofLine_eq_ok_iff, ?_⟩
  have hscan := Token.accounts_scan (n := 1) (Token.seam_nil text.toList)
  rw [ofLine]
  cases hresult : Token.scan 1 text.toList with
  | ok ts =>
    rw [hresult] at hscan
    refine ⟨⟨?_, ?_⟩, ?_⟩
    · rintro ⟨fault, h⟩
      cases h
    · rintro ⟨before, c, after, htext, hc⟩
      exact absurd (hscan before c after htext) hc
    · intro fault h
      cases h
  | error fault =>
    rw [hresult] at hscan
    obtain ⟨early, c, late, htext, hearly, hc, hstart, rfl⟩ := hscan
    refine ⟨⟨fun _ => ⟨early, c, late, htext, hc⟩, fun _ => ⟨_, rfl⟩⟩, fun fault h => ?_⟩
    cases h
    refine ⟨Token.width early, _, ?_, Token.firstUncovered_of_accounts htext hearly hc hstart⟩
    rw [Nat.add_comm]

/-- A wide blank between two words; and behind a word three characters that start nothing, the first of
them of two bytes. -/
theorem TokenRow.tiles_iff_ofLine_wide :
    (∃ row, ofLine "chat\u3000id:vector<int32>;" = .ok row ∧ row.tokens.length = 5 ∧
      row.Tiles "chat\u3000id:vector<int32>;") ∧
    ofLine "id é9? = A;" = .error ⟨4, .unreadable "é9?"⟩ ∧
    Token.FirstUncovered "id é9? = A;" 3 "é9?" := by
  have hrow : ofLine "chat\u3000id:vector<int32>;" = .ok ⟨[⟨.word "chat", 1⟩, ⟨.word "id", 8⟩,
      ⟨.colon, 10⟩, ⟨.word "vector<int32>", 11⟩, ⟨.semicolon, 24⟩], 25⟩ := by decide +kernel
  have hfault : ofLine "id é9? = A;" = .error ⟨4, .unreadable "é9?"⟩ := by decide +kernel
  refine ⟨⟨_, hrow, rfl, ((tiles_iff_ofLine _).1 _).mp hrow⟩, hfault, ?_⟩
  obtain ⟨offset, shown, heq, hfirst⟩ := (tiles_iff_ofLine _).2.2 _ hfault
  cases heq
  exact hfirst

end TypeLang
