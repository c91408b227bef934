import Mathlib.Data.List.Forall2
import TypeLang.Proofs.Blocks
import TypeLang.Proofs.Words

/-! # Carriage returns at the end of a line

A carriage return that ends the last line of a text belongs to the line, and is gone as soon as a line
feed follows. `SameLine` relates the two lines. Nothing that is read from a line tells them apart: a
carriage return is a blank, it goes into no word, no tag and no token, and where a line is cut into
pieces it ends up at the end of the last one. -/

namespace TypeLang

namespace Text
variable {p : Char → Bool} {cs ds w : List Char}

/-- The same line, or the same but for a carriage return at its end. -/
def SameLine (cs ds : List Char) : Prop := cs = ds ∨ cs = ds ++ ['\r']

theorem SameLine.refl (cs : List Char) : SameLine cs cs := .inl rfl

theorem SameLine.cons (h : SameLine cs ds) (c : Char) : SameLine (c :: cs) (c :: ds) := by
  rcases h with rfl | rfl
  · exact .inl rfl
  · exact .inr rfl

theorem isBlank_return : isBlank '\r' = true := by decide

/-! ### Pieces of a line -/

theorem takeWhile_append_return (hp : p '\r' = false) (cs : List Char) :
    (cs ++ ['\r']).takeWhile p = cs.takeWhile p := by
  induction cs with
  | nil => simp [hp]
  | cons c cs ih => rw [List.cons_append, List.takeWhile_cons, List.takeWhile_cons, ih]

theorem dropWhile_append_return (hp : p '\r' = false) (cs : List Char) :
    (cs ++ ['\r']).dropWhile p = cs.dropWhile p ++ ['\r'] := by
  induction cs with
  | nil => simp [hp]
  | cons c cs ih =>
    rw [List.cons_append, List.dropWhile_cons, List.dropWhile_cons, ih]
    split <;> rfl

theorem prefix_append_return (hw : '\r' ∉ w) (cs : List Char) : w <+: cs ++ ['\r'] ↔ w <+: cs := by
  rw [List.prefix_concat_iff, or_iff_right]
  rintro rfl
  exact hw (by simp)

theorem SameLine.modifyHead_cons {segments segments' : List (List Char)}
    (h : List.Forall₂ SameLine segments segments') (c : Char) :
    List.Forall₂ SameLine (segments.modifyHead (c :: ·)) (segments'.modifyHead (c :: ·)) := by
  cases h with
  | nil => exact .nil
  | cons h hs => exact .cons (h.cons c) hs

theorem splitOnP_append_return (hp : p '\r' = false) (cs : List Char) :
    List.Forall₂ SameLine ((cs ++ ['\r']).splitOnP p) (cs.splitOnP p) := by
  induction cs with
  | nil =>
    rw [List.nil_append, List.splitOnP_cons_eq_if_modifyHead, hp]
    exact .cons (.inr rfl) .nil
  | cons c cs ih =>
    rw [List.cons_append, List.splitOnP_cons_eq_if_modifyHead, List.splitOnP_cons_eq_if_modifyHead]
    split
    · exact .cons (.refl []) ih
    · exact SameLine.modifyHead_cons ih c

/-! ### Blanks -/

theorem SameLine.trimStart (h : SameLine cs ds) : SameLine (trimStart cs) (trimStart ds) := by
  rcases h with rfl | rfl
  · exact .refl _
  · unfold Text.trimStart
    rw [List.dropWhile_append]
    split
    next hds =>
      rw [List.isEmpty_iff.mp hds, List.dropWhile_cons_of_pos isBlank_return]
      exact .refl []
    · exact .inr rfl

theorem trimEnd_append_return (cs : List Char) : trimEnd (cs ++ ['\r']) = trimEnd cs := by
  rw [trimEnd, List.reverse_append, List.reverse_singleton, List.singleton_append,
    List.dropWhile_cons_of_pos isBlank_return, trimEnd]

theorem SameLine.trim_eq (h : SameLine cs ds) : trim cs = trim ds := by
  unfold trim
  rcases h.trimStart with h | h
  · rw [h]
  · rw [h, trimEnd_append_return]

theorem SameLine.prefix_trimStart (h : SameLine cs ds) (hw : '\r' ∉ w) :
    w <+: Text.trimStart cs ↔ w <+: Text.trimStart ds := by
  rcases h.trimStart with h | h
  · rw [h]
  · rw [h, prefix_append_return hw]

/-! ### Lines of a text -/

theorem sameLine_dropReturn (line : List Char) : SameLine line.reverse (dropReturn line).reverse := by
  unfold dropReturn
  split
  · exact .inr (by rw [List.reverse_cons])
  · exact .refl _

theorem linesFrom_append_feed (line cs ds : List Char) :
    linesFrom line (cs ++ '\n' :: ds) = linesFrom line (cs ++ ['\n']) ++ linesFrom [] ds := by
  induction cs generalizing line with
  | nil => simp [linesFrom]
  | cons c cs ih =>
    simp only [List.cons_append, linesFrom]
    split
    · rw [ih, List.cons_append]
    · exact ih _

/-- A line feed at the end ends the last line, or is an empty line of its own if there was no line to
end. -/
theorem linesFrom_append_singleton (line cs : List Char) :
    List.Forall₂ SameLine (linesFrom line cs) (linesFrom line (cs ++ ['\n'])) ∨
      linesFrom line (cs ++ ['\n']) = linesFrom line cs ++ [[]] := by
  induction cs generalizing line with
  | nil =>
    cases line with
    | nil => exact .inr rfl
    | cons c line => exact .inl (.cons (sameLine_dropReturn (c :: line)) .nil)
  | cons c cs ih =>
    simp only [List.cons_append, linesFrom]
    split
    · rcases ih [] with h | h
      · exact .inl (.cons (.refl _) h)
      · exact .inr (by rw [h, List.cons_append])
    · exact ih _

theorem lines_join (a b : String) :
    lines (a ++ "\n\n" ++ b) = lines (a ++ "\n") ++ "" :: lines b := by
  unfold lines
  have ha : (a ++ "\n\n" ++ b).toList = a.toList ++ '\n' :: '\n' :: b.toList := by simp
  rw [ha, linesFrom_append_feed]
  simp [linesFrom, dropReturn]

end Text

open Text

/-! ### Lines -/

theorem endsWord_append_return (cs : List Char) : endsWord (cs ++ ['\r']) = endsWord cs := by
  cases cs with
  | nil => decide
  | cons c cs => rfl

theorem expandBytes_append_return (cs : List Char) :
    expandBytes (cs ++ ['\r']) = expandBytes cs ++ ['\r'] := by
  fun_induction expandBytes cs with
  | case1 => rfl
  | case2 cs ih =>
    simp only [List.cons_append, expandBytes, endsWord_append_return, ih, List.append_assoc]
  | case3 c cs hno ih =>
    rw [List.cons_append, expandBytes, ih, List.cons_append]
    -- the carriage return is no part of the spelling, so it was there before
    intro ds hc hcs
    have hprefix : "bytes".toList <+: cs ++ ['\r'] := ⟨ds, hcs.symm⟩
    obtain ⟨ds', hcs'⟩ := (prefix_append_return (by decide) cs).mp hprefix
    exact hno ds' hc hcs'.symm

section
variable {l l' : String}

theorem isBlankLine_congr (h : SameLine l.toList l'.toList) : isBlankLine l = isBlankLine l' := by
  unfold isBlankLine
  rcases h with h | h
  · rw [h]
  · simp [h, isBlank_return]

theorem sameLine_expandLine (h : SameLine l.toList l'.toList) :
    SameLine (expandLine l).toList (expandLine l').toList := by
  unfold expandLine
  rw [String.toList_ofList, String.toList_ofList]
  rcases h with h | h
  · exact .inl (by rw [h])
  · exact .inr (by rw [h, expandBytes_append_return])

theorem isComment_congr (h : SameLine l.toList l'.toList) : isComment l = isComment l' := by
  rw [Bool.eq_iff_iff, isComment_iff, isComment_iff, h.prefix_trimStart (by decide),
    h.prefix_trimStart (by decide)]

theorem firstWord_congr (h : SameLine l.toList l'.toList) : firstWord l = firstWord l' := by
  unfold firstWord
  rcases h.trimStart with h | h
  · rw [h]
  · rw [h, takeWhile_append_return (by decide)]

theorem declaresScalar_congr (h : SameLine l.toList l'.toList) :
    declaresScalar l = declaresScalar l' := by
  rw [declaresScalar, declaresScalar, firstWord_congr h]

end

/-! ### Tokens -/

theorem Token.scan_append_return (column : Nat) (cs : List Char) :
    scan column (cs ++ ['\r']) = scan column cs := by
  fun_induction scan column cs with
  | case1 column => rw [List.nil_append, scan, if_pos isBlank_return, scan]
  | case2 column c cs hc ih => rw [List.cons_append, scan, if_pos hc, ih]
  | case3 column c cs hc mark hm ih =>
    rw [List.cons_append, scan, if_neg hc, ih]
    simp only [hm]
  | case4 column c cs hc hm hw word ih =>
    have hpart : isWordPart '\r' = false := by decide
    rw [List.cons_append, scan, if_neg hc]
    simp only [hm, hw, if_true, takeWhile_append_return hpart, dropWhile_append_return hpart, ih,
      word]
  | case5 column c cs hc hm hw =>
    have hrest := takeWhile_append_return (p := fun d => !isStart d) (by decide) cs
    rw [List.cons_append, scan, if_neg hc]
    simp only [hm, if_neg hw, hrest]

/-! ### Signatures -/

namespace Signature
variable {n : Nat} {ts : List Token}

-- The column after the line is only told in faults.

theorem parseResult_eq_ok {result : String} (h : parseResult n ts = .ok result) (n' : Nat) :
    parseResult n' ts = .ok result := by
  unfold parseResult at h
  split at h
  next w column rest =>
    split at h
    next hb =>
      split at h
      · cases h; rw [parseResult, if_pos hb]
      · cases h
      · cases h
    · cases h
  · cases h

theorem parseFields_eq_ok {r : List FieldSpec × String} (h : parseFields n ts = .ok r) (n' : Nat) :
    parseFields n' ts = .ok r := by
  fun_induction parseFields n ts generalizing r with
  | case1 column rest =>
    obtain ⟨result, hresult, rfl⟩ := exists_of_map_eq_ok h
    rw [parseFields, parseResult_eq_ok hresult n']
    rfl
  | case2 name column hid colon type typeColumn rest hbalanced ih =>
    obtain ⟨r, hr, rfl⟩ := exists_of_map_eq_ok h
    rw [parseFields, if_pos hid]
    simp only [hbalanced, if_true, ih hr]
    rfl
  | _ => cases h

theorem ofRow_eq_ok {d : Signature} (h : ofRow ⟨ts, n⟩ = .ok d) (n' : Nat) :
    ofRow ⟨ts, n'⟩ = .ok d := by
  unfold ofRow at h ⊢
  split at h
  next name column rest htokens =>
    replace htokens : ts = _ := htokens
    subst htokens
    split at h
    next hid =>
      obtain ⟨r, hr, rfl⟩ := exists_of_map_eq_ok h
      simp only [hid, if_true, parseFields_eq_ok hr n']
      rfl
    · cases h
  · cases h

theorem parse_congr {l l' : String} (h : SameLine l.toList l'.toList) (d : Signature) :
    parse l = .ok d ↔ parse l' = .ok d := by
  have hscan : Token.scan 1 l.toList = Token.scan 1 l'.toList := by
    rcases h with h | h
    · rw [h]
    · rw [h, Token.scan_append_return]
  unfold parse TokenRow.ofLine
  rw [hscan]
  cases Token.scan 1 l'.toList with
  | error fault => rfl
  | ok ts => exact ⟨fun h => ofRow_eq_ok h _, fun h => ofRow_eq_ok h _⟩

end Signature

/-! ### Tags -/

namespace DocTags

theorem tag?_congr {cs ds : List Char} (h : SameLine cs ds) : tag? cs = tag? ds := by
  rcases h with rfl | rfl
  · rfl
  · have hchar : isTagChar '\r' = false := by decide
    unfold tag?
    rw [takeWhile_append_return hchar, dropWhile_append_return hchar]
    cases hrest : ds.dropWhile isTagChar with
    | nil => rfl
    | cons c rest =>
      have htrim : trim (rest ++ ['\r']) = trim rest := SameLine.trim_eq (.inr rfl)
      by_cases hc : c = ' '
      · subst hc
        simp only [List.cons_append, htrim]
      · simp [hc]

theorem tagsIn_congr {cs ds : List Char} (h : SameLine cs ds) : tagsIn cs = tagsIn ds := by
  rcases h with rfl | rfl
  · rfl
  · have hsegments := splitOnP_append_return (p := (· == '@')) (by decide) ds
    rw [tagsIn, tagsIn, ← List.forall₂_eq_eq_eq]
    refine List.rel_filterMap (fun s s' hs => ?_) (List.forall₂_drop 1 hsegments)
    rw [tag?_congr hs]
    cases tag? s' with
    | none => exact .none
    | some tag => exact .some rfl

theorem carried?_eq_some_iff {cs words : List Char} :
    carried? cs = some words ↔ trimStart cs = "//-".toList ++ words := by
  unfold carried?
  split
  next h =>
    rw [h]
    simp
  next hno =>
    refine ⟨fun h => (by cases h), fun h => absurd h (hno words)⟩

theorem carried?_congr {cs ds : List Char} (h : SameLine cs ds) :
    Option.Rel SameLine (carried? cs) (carried? ds) := by
  cases hds : carried? ds with
  | some words =>
    have hsame := h.trimStart
    rw [carried?_eq_some_iff.mp hds] at hsame
    rcases hsame with h | h
    · rw [carried?_eq_some_iff.mpr h]
      exact .some (.refl words)
    · rw [List.append_assoc] at h
      rw [carried?_eq_some_iff.mpr h]
      exact .some (.inr rfl)
  | none =>
    cases hcs : carried? cs with
    | none => exact .none
    | some words =>
      have hprefix : "//-".toList <+: trimStart cs := ⟨words, (carried?_eq_some_iff.mp hcs).symm⟩
      obtain ⟨words', hwords'⟩ := (h.prefix_trimStart (by decide)).mp hprefix
      rw [carried?_eq_some_iff.mpr hwords'.symm] at hds
      cases hds

theorem addLine_congr {l l' : String} (h : SameLine l.toList l'.toList) (docs : DocTags) :
    docs.addLine l = docs.addLine l' := by
  have hcarried := carried?_congr h
  unfold addLine
  rw [tagsIn_congr h]
  generalize carried? l.toList = o at hcarried ⊢
  generalize carried? l'.toList = o' at hcarried ⊢
  cases hcarried with
  | none => rfl
  | some hwords => simp only [carryOn, hwords.trim_eq]

theorem ofLines_congr {ls ls' : List String}
    (h : List.Forall₂ (fun l l' => SameLine l.toList l'.toList) ls ls') : ofLines ls = ofLines ls' :=
  List.rel_foldl (P := Eq) (by rintro docs - rfl l l' hl; exact addLine_congr hl docs) rfl h

end DocTags

end TypeLang
