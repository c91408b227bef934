import Mathlib.Tactic.Common
import TypeLang.Proofs.Layout

/-! # Entities

A text is written into markup so that it can be read back, and so that no part of it is taken for a tag.
What can be written at all are the texts without angle brackets in which every ampersand starts an entity
(`Text.IsEscaped`), and reading these in one walk gives the only text that is written like this
(`Text.markup_eq_iff`). So no two descriptions have the same summary, and the closing tag of a summary
stands in one place, behind the description. -/

namespace TypeLang

namespace Text
variable {s t : String} {c : Char} {cs : List Char}

/-- What may follow an ampersand. -/
def entityNames : List String := ["amp;", "lt;", "gt;"]

/-- No tag starts or ends in the text, and every ampersand in it starts an entity. -/
structure IsEscaped (cs : List Char) : Prop where
  lt : '<' ∉ cs
  gt : '>' ∉ cs
  entity : ∀ early late, cs = early ++ '&' :: late → ∃ name ∈ entityNames, name.toList <+: late

/-- The text that a markup text was written from: an entity is read as its character, and any other
character as itself. -/
def readMarkup : List Char → List Char
  | '&' :: 'a' :: 'm' :: 'p' :: ';' :: cs => '&' :: readMarkup cs
  | '&' :: 'l' :: 't' :: ';' :: cs => '<' :: readMarkup cs
  | '&' :: 'g' :: 't' :: ';' :: cs => '>' :: readMarkup cs
  | c :: cs => c :: readMarkup cs
  | [] => []

/-! ### Reading back -/

theorem readMarkup_cons (hc : c ≠ '&') (cs : List Char) :
    readMarkup (c :: cs) = c :: readMarkup cs := by
  rw [readMarkup] <;> exact fun _ h => absurd h hc

theorem readMarkup_markupChar (c : Char) (cs : List Char) :
    readMarkup (markupChar c ++ cs) = c :: readMarkup cs := by
  unfold markupChar
  split_ifs with hamp hlt hgt
  · rw [hamp]; rfl
  · rw [hlt]; rfl
  · rw [hgt]; rfl
  · exact readMarkup_cons hamp cs

theorem readMarkup_flatMap (cs : List Char) : readMarkup (cs.flatMap markupChar) = cs := by
  induction cs with
  | nil => rfl
  | cons c cs ih => rw [List.flatMap_cons, readMarkup_markupChar, ih]

/-! ### What can be written -/

theorem isEscaped_nil : IsEscaped [] := ⟨by simp, by simp, by simp⟩

theorem isEscaped_cons_iff : IsEscaped (c :: cs) ↔ c ≠ '<' ∧ c ≠ '>' ∧
    (c = '&' → ∃ name ∈ entityNames, name.toList <+: cs) ∧ IsEscaped cs := by
  constructor
  · rintro ⟨hlt, hgt, hentity⟩
    rw [List.mem_cons, not_or] at hlt hgt
    refine ⟨Ne.symm hlt.1, Ne.symm hgt.1, ?_, hlt.2, hgt.2, ?_⟩
    · rintro rfl
      exact hentity [] cs rfl
    · rintro early late rfl
      exact hentity (c :: early) late rfl
  · rintro ⟨hlt, hgt, hamp, h⟩
    refine ⟨?_, ?_, fun early late hcut => ?_⟩
    · simp [hlt.symm, h.lt]
    · simp [hgt.symm, h.gt]
    · cases early with
      | nil =>
        obtain ⟨rfl, rfl⟩ := List.cons.inj hcut
        exact hamp rfl
      | cons d early =>
        obtain ⟨rfl, rfl⟩ := List.cons.inj hcut
        exact h.entity early late rfl

theorem isEscaped_flatMap (cs : List Char) : IsEscaped (cs.flatMap markupChar) := by
  induction cs with
  | nil => exact isEscaped_nil
  | cons c cs ih =>
    have hentity : ∀ name ∈ entityNames,
        IsEscaped ('&' :: (name.toList ++ cs.flatMap markupChar)) := by
      simp [entityNames, isEscaped_cons_iff, ih]
    rw [List.flatMap_cons, markupChar]
    split_ifs with hamp hlt hgt
    · exact hentity "amp;" (by decide)
    · exact hentity "lt;" (by decide)
    · exact hentity "gt;" (by decide)
    · exact isEscaped_cons_iff.mpr ⟨hlt, hgt, fun h => absurd h hamp, ih⟩

theorem IsEscaped.of_append (w : List Char) (h : IsEscaped (w ++ cs)) : IsEscaped cs := by
  induction w with
  | nil => exact h
  | cons c w ih => exact ih (isEscaped_cons_iff.mp h).2.2.2

theorem flatMap_readMarkup (h : IsEscaped cs) : (readMarkup cs).flatMap markupChar = cs := by
  fun_induction readMarkup cs with
  | case1 cs ih =>
    rw [List.flatMap_cons, ih (h.of_append "&amp;".toList)]
    rfl
  | case2 cs ih =>
    rw [List.flatMap_cons, ih (h.of_append "&lt;".toList)]
    rfl
  | case3 cs ih =>
    rw [List.flatMap_cons, ih (h.of_append "&gt;".toList)]
    rfl
  | case4 c cs hamp hlt hgt ih =>
    obtain ⟨hne, hne', hentity, htail⟩ := isEscaped_cons_iff.mp h
    -- an ampersand would start an entity, which was read before
    have hc : c ≠ '&' := by
      intro hc
      obtain ⟨name, hname, ds, rfl⟩ := hentity hc
      simp only [entityNames, List.mem_cons, List.not_mem_nil, or_false] at hname
      rcases hname with rfl | rfl | rfl
      · exact hamp ds hc rfl
      · exact hlt ds hc rfl
      · exact hgt ds hc rfl
    rw [List.flatMap_cons, ih htail, markupChar, if_neg hc, if_neg hne, if_neg hne']
    rfl
  | case5 => rfl

theorem markup_eq_iff : markup s = t ↔ IsEscaped t.toList ∧ readMarkup t.toList = s.toList := by
  constructor
  · rintro rfl
    rw [toList_markup]
    exact ⟨isEscaped_flatMap _, readMarkup_flatMap _⟩
  · rintro ⟨h, hread⟩
    rw [← String.toList_inj, toList_markup, ← hread, flatMap_readMarkup h]

example : markup "a &lt; <b>" = "a &amp;lt; &lt;b&gt;" := by decide

theorem markup_injective : Function.Injective markup := by
  intro s t h
  obtain ⟨-, hs⟩ := markup_eq_iff.mp h
  obtain ⟨-, ht⟩ := markup_eq_iff.mp (rfl : markup t = markup t)
  exact String.toList_inj.mp (hs.symm.trans ht)

end Text

/-! ### Summaries -/

namespace Source

open Text

variable {c : Char} {w rest early late : List Char}

/-- The summary as it is written, `n` braces deep. -/
def summaryText (n : Nat) (description : Option String) : List Char :=
  (({ indent := n } : CodeWriter).summary description).out.toList

/-- What a line of a summary starts with. -/
def margin (n : Nat) : List Char := List.replicate (4 * n) ' ' ++ "/// ".toList

/-- What stands between the tags of a summary. -/
def summaryBody (n : Nat) (s : String) : List Char :=
  margin n ++ (markup s).toList ++ '\n' :: margin n

theorem summaryText_some (n : Nat) (s : String) : summaryText n (some s) =
    margin n ++ '<' :: ("summary>\n".toList ++ summaryBody n s ++ '<' :: "/summary>\n".toList) := by
  simp [summaryText, CodeWriter.summary_eq, CodeWriter.wrote, summary, CodeLine.deeper, CodeLine.ofText,
    CodeLine.render, summaryBody, margin]

theorem lt_not_mem_margin (n : Nat) : '<' ∉ margin n := by
  simp [margin, List.mem_replicate]

theorem lt_not_mem_summaryBody (n : Nat) (s : String) : '<' ∉ summaryBody n s := by
  have hmarkup : '<' ∉ (markup s).toList := (markup_eq_iff.mp rfl).1.lt
  simp [summaryBody, lt_not_mem_margin, hmarkup]

theorem summaryText_injective (n : Nat) : Function.Injective (summaryText n) := by
  have hne : ∀ s, summaryText n none ≠ summaryText n (some s) := by
    intro s h
    rw [summaryText_some] at h
    simp [summaryText, CodeWriter.summary] at h
  intro d d' h
  cases d with
  | none =>
    cases d' with
    | none => rfl
    | some s' => exact absurd h (hne s')
  | some s =>
    cases d' with
    | none => exact absurd h.symm (hne s)
    | some s' =>
      -- all but the description is the same in both
      rw [summaryText_some, summaryText_some, List.append_right_inj, List.cons_inj_right,
        List.append_left_inj, List.append_right_inj, summaryBody, summaryBody, List.append_left_inj,
        List.append_right_inj] at h
      rw [markup_injective (String.toList_inj.mp h)]

/-- Of two places with the same character, one is the first, and the other one stands behind it. -/
theorem eq_or_exists_of_append_cons (hw : c ∉ w) (h : w ++ c :: rest = early ++ c :: late) :
    rest = late ∨ ∃ early', rest = early' ++ c :: late := by
  rcases List.append_eq_append_iff.mp h with ⟨as, rfl, has⟩ | ⟨as, rfl, has⟩
  · cases as with
    | nil => exact .inl (List.cons.inj has).2
    | cons a as => exact .inr ⟨as, (List.cons.inj has).2⟩
  · cases as with
    | nil => exact .inl (List.cons.inj has).2.symm
    | cons a as =>
      obtain ⟨rfl, -⟩ := List.cons.inj has
      simp at hw

/-- The closing tag ends the summary, and stands nowhere else in it. -/
theorem summaryText_closes (n : Nat) (s : String) (late : List Char) :
    (∃ early, summaryText n (some s) = early ++ "</summary>".toList ++ late) ↔ late = ['\n'] := by
  have htag : "</summary>".toList = '<' :: "/summary>".toList := by decide
  rw [summaryText_some, htag]
  constructor
  · rintro ⟨early, h⟩
    rw [List.append_assoc early, List.cons_append] at h
    rcases eq_or_exists_of_append_cons (lt_not_mem_margin n) h with hlate | ⟨early', h⟩
    · -- the first angle bracket has no slash behind it
      simp at hlate
    have hbody : '<' ∉ "summary>\n".toList ++ summaryBody n s := by
      rw [List.mem_append, not_or]
      exact ⟨by decide, lt_not_mem_summaryBody n s⟩
    rcases eq_or_exists_of_append_cons hbody h with hlate | ⟨early'', h⟩
    · have hcut : "/summary>\n".toList = "/summary>".toList ++ ['\n'] := by decide
      rw [hcut, List.append_right_inj] at hlate
      exact hlate.symm
    · have hmem : '<' ∈ "/summary>\n".toList := by
        rw [h]
        simp
      exact absurd hmem (by decide)
  · rintro rfl
    refine ⟨margin n ++ '<' :: ("summary>\n".toList ++ summaryBody n s), ?_⟩
    simp

/-- Substituting all characters of a kind at a time comes to the same as going over the text once, and
can be undone: what is written are the texts without angle brackets in which every ampersand starts an
entity, and reading such a text gives the only one that it was written from. So no two descriptions
have the same summary, and the closing tag of a summary stands only where the summary ends. -/
theorem markup_lossless (n : Nat) (s : String) :
    (markup s).toList = s.toList.flatMap markupChar ∧
    (∀ t, markup s = t ↔ IsEscaped t.toList ∧ readMarkup t.toList = s.toList) ∧
    (∀ d, summaryText n d = summaryText n (some s) ↔ d = some s) ∧
    ∀ late, (∃ early, summaryText n (some s) = early ++ "</summary>".toList ++ late) ↔
      late = ['\n'] :=
  ⟨toList_markup s, fun _ => markup_eq_iff, fun _ => (summaryText_injective n).eq_iff,
    summaryText_closes n s⟩

end Source

end TypeLang
