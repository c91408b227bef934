import TypeLang.Proofs.Words

/-! # Upper, lower and Pascal case

The characters of ASCII that are no letters have no other case, and none of them is the other case of
a character: what the tables move into ASCII are letters (`mem_upperChar_iff`, `mem_lowerChar_iff`).
Hence names that differ in case have the same underscores and brackets. Pascal case keeps the brackets
and drops every underscore (`mem_pascal_iff`), so a member that takes an underscore at its end is told
from all others, and from its class (`member_eq_iff`, `sameLetters_member`). -/

namespace TypeLang

namespace Text
variable {x c : Char} {n m : Nat} {expansions : List (Nat × List Nat)} {runs : List CaseRun}

/-- A character of ASCII that is no letter. -/
def isCaseless (c : Char) : Bool := c.toNat < 0x80 && !c.isAlpha

/-! ### Tables -/

/-- The run moves nothing to a character of ASCII that is no letter: all images are characters, and
they lie above ASCII unless there is only one. -/
def CaseRun.IsLettered (r : CaseRun) : Prop :=
  (0x80 ≤ r.first + r.shift ∧
    (r.last + r.shift < 0xD800 ∨ 0xDFFF < r.first + r.shift ∧ r.last + r.shift < 0x110000)) ∨
  r.first = r.last ∧ isCaseless (Char.ofNat (r.first + r.shift).toNat) = false

instance (r : CaseRun) : Decidable r.IsLettered := inferInstanceAs (Decidable (_ ∨ _))

/-- No image in the tables is a character of ASCII that is no letter. -/
def AreLettered (expansions : List (Nat × List Nat)) (runs : List CaseRun) : Prop :=
  (∀ p ∈ expansions, ∀ m ∈ p.2, isCaseless (Char.ofNat m) = false) ∧ ∀ r ∈ runs, r.IsLettered

theorem areLettered_upper : AreLettered upperExpansions upperRuns := by
  unfold AreLettered
  decide +kernel

theorem areLettered_lower : AreLettered lowerExpansions lowerRuns := by
  unfold AreLettered
  decide +kernel

theorem isCaseless_of_le (h : 0x80 ≤ c.toNat) : isCaseless c = false := by
  rw [isCaseless, decide_eq_false (Nat.not_lt.mpr h), Bool.false_and]

theorem toNat_ofNat_of_isValidChar (h : n.isValidChar) : (Char.ofNat n).toNat = n := by
  rw [Char.ofNat, dif_pos h]
  rfl

theorem isCaseless_of_shifted? {r : CaseRun} (hr : r.IsLettered) (h : r.shifted? n = some m) :
    isCaseless (Char.ofNat m) = false := by
  rw [CaseRun.shifted?] at h
  split at h
  · next hin =>
    obtain rfl := Option.some.inj h
    rcases hr with ⟨hlow, hvalid⟩ | ⟨hone, hletter⟩
    · have hchar : (n + r.shift).toNat.isValidChar := by
        unfold Nat.isValidChar
        omega
      refine isCaseless_of_le ?_
      rw [toNat_ofNat_of_isValidChar hchar]
      omega
    · have hn : n = r.first := by omega
      rw [hn]
      exact hletter
  · cases h

theorem isCaseless_of_mem_mapCase (ht : AreLettered expansions runs) (hc : 0x80 ≤ c.toNat)
    (hm : m ∈ mapCase expansions runs c.toNat) : isCaseless (Char.ofNat m) = false := by
  unfold mapCase at hm
  split at hm
  · next ns hns =>
    obtain ⟨before, after, hexp, -⟩ := List.lookup_eq_some_iff.mp hns
    exact ht.1 (c.toNat, ns) (by rw [hexp]; simp) m hm
  · obtain rfl := List.mem_singleton.mp hm
    cases hs : runs.findSome? (·.shifted? c.toNat) with
    | none =>
      rw [Option.getD_none, Char.ofNat_toNat]
      exact isCaseless_of_le hc
    | some k =>
      obtain ⟨r, hr, hshift⟩ := List.exists_of_findSome?_eq_some hs
      exact isCaseless_of_shifted? (ht.2 r hr) hshift

/-! ### Characters and texts -/

/-- A casing leaves the characters of ASCII that are no letters where they are, and moves no other
character there. -/
theorem mem_image_iff {f : Char → Char} (ht : AreLettered expansions runs)
    (hf : ∀ n < 0x80, (isCaseless (Char.ofNat n) = true → f (Char.ofNat n) = Char.ofNat n) ∧
      (isCaseless (f (Char.ofNat n)) = true → isCaseless (Char.ofNat n) = true))
    (hx : isCaseless x = true) :
    x ∈ (if c.toNat < 0x80 then [f c] else (mapCase expansions runs c.toNat).map Char.ofNat) ↔
      c = x := by
  split
  · next hlt =>
    have hc := hf c.toNat hlt
    rw [Char.ofNat_toNat] at hc
    rw [List.mem_singleton]
    constructor
    · intro h
      rw [h] at hx
      rw [h, hc.1 (hc.2 hx)]
    · rintro rfl
      exact (hc.1 hx).symm
  · next hlt =>
    have hle := Nat.not_lt.mp hlt
    constructor
    · intro h
      obtain ⟨m, hm, rfl⟩ := List.mem_map.mp h
      rw [isCaseless_of_mem_mapCase ht hle hm] at hx
      cases hx
    · rintro rfl
      rw [isCaseless_of_le hle] at hx
      cases hx

theorem mem_upperChar_iff (hx : isCaseless x = true) : x ∈ upperChar c ↔ c = x :=
  mem_image_iff areLettered_upper (by decide) hx

theorem mem_lowerChar_iff (hx : isCaseless x = true) : x ∈ lowerChar c ↔ c = x :=
  mem_image_iff areLettered_lower (by decide) hx

theorem mem_lowerAfter_iff (hx : isCaseless x = true) (before cs : List Char) :
    x ∈ lowerAfter before cs ↔ x ∈ cs := by
  induction cs generalizing before with
  | nil => rfl
  | cons c cs ih =>
    rw [lowerAfter, List.mem_append, ih, List.mem_cons]
    refine or_congr_left ?_
    split
    · next hc =>
      -- neither the capital sigma nor the small ones are characters of ASCII
      have hne : ∀ d, isCaseless d = false → x ≠ d := by
        rintro d hd rfl
        rw [hd] at hx
        cases hx
      rw [hc, iff_false_right (hne _ (by decide))]
      split
      · rw [List.mem_singleton]
        exact hne _ (by decide)
      · rw [List.mem_singleton]
        exact hne _ (by decide)
    · rw [mem_lowerChar_iff hx, eq_comm]

theorem mem_lower_iff (hx : isCaseless x = true) (s : String) :
    x ∈ (lower s).toList ↔ x ∈ s.toList := by
  rw [lower, String.toList_ofList, mem_lowerAfter_iff hx]

end Text

namespace Naming
open Text
variable {x : Char} {s t field : String}

/-! ### Pascal case -/

theorem mem_pascalFrom_iff (hx : isCaseless x = true) (start : Bool) (cs : List Char) :
    x ∈ pascalFrom start cs ↔ x ∈ cs ∧ x ≠ '_' := by
  induction cs generalizing start with
  | nil => simp [pascalFrom]
  | cons c cs ih =>
    rw [pascalFrom]
    split
    · next hc =>
      subst hc
      rw [ih, List.mem_cons, or_and_right]
      exact (or_iff_right fun h => h.2 h.1).symm
    · next hc =>
      have hfirst : x ∈ (if start then upperChar c else [c]) ↔ x = c := by
        split
        · rw [mem_upperChar_iff hx, eq_comm]
        · exact List.mem_singleton
      rw [List.mem_append, ih, hfirst, List.mem_cons, or_and_right]
      refine or_congr_left ⟨fun h => ⟨h, h ▸ hc⟩, And.left⟩

theorem mem_pascal_iff (hx : isCaseless x = true) : x ∈ (pascal s).toList ↔ x ∈ s.toList ∧ x ≠ '_' := by
  rw [pascal, String.toList_ofList, mem_pascalFrom_iff hx]

theorem underscore_not_mem_pascal (s : String) : '_' ∉ (pascal s).toList := by
  rw [mem_pascal_iff (by decide)]
  exact fun h => h.2 rfl

theorem mem_iff_of_sameLetters (h : sameLetters s t = true) (hx : isCaseless x = true) :
    x ∈ s.toList ↔ x ∈ t.toList := by
  rw [← mem_lower_iff hx s, eq_of_beq h, mem_lower_iff hx]

/-! ### Members -/

theorem underscore_mem_append (s : String) : '_' ∈ (s ++ "_").toList := by
  rw [String.toList_append]
  exact List.mem_append_right _ (by decide)

/-- Two fields share a member name exactly if they share the Pascal case: the underscore at the end
hangs on nothing else. -/
theorem member_eq_iff {a b className : String} :
    member a className = member b className ↔ pascal a = pascal b := by
  unfold member
  constructor
  · intro h
    split at h <;> split at h
    · exact (String.append_left_inj _).mp h
    · exact absurd (h ▸ underscore_mem_append _) (underscore_not_mem_pascal b)
    · exact absurd (h ▸ underscore_mem_append _) (underscore_not_mem_pascal a)
    · exact h
  · intro h
    rw [h]

theorem member_eq_iff_of_not_mem {className : String} (ht : '_' ∉ t.toList) :
    member field className = t ↔ pascal field = t ∧ sameLetters t className = false := by
  unfold member
  split
  · next hsame =>
    constructor
    · rintro rfl
      exact absurd (underscore_mem_append _) ht
    · rintro ⟨rfl, hne⟩
      rw [hsame] at hne
      cases hne
  · next hsame =>
    rw [Bool.not_eq_true] at hsame
    exact ⟨fun h => ⟨h, h ▸ hsame⟩, And.left⟩

/-- No member has the letters of its class. -/
theorem sameLetters_member {className : String} (hc : '_' ∉ className.toList) (field : String) :
    sameLetters (member field className) className = false := by
  unfold member
  split
  · rw [Bool.eq_false_iff]
    intro h
    exact hc ((mem_iff_of_sameLetters h (by decide)).mp (underscore_mem_append _))
  · next hsame => exact Bool.eq_false_iff.mpr hsame

end Naming

end TypeLang
