import TypeLang.Proofs.Emitted

/-! # Words of a schema

The words of a declaration line start with a letter or an underscore, and may hold brackets later on
(`Token.isWord_of_mem_scan`). So the name that a line declares is an identifier, and so is every type
in it that has no argument; the leaf of a generic type is made of the same characters, but may start
with a digit (`TypeExpr.leaf_of_isWord`). Putting the first character into upper case changes none of
this. -/

namespace TypeLang

open Text

section Results
variable {ε α β : Type} {r : Except ε α}

theorem exists_of_map_eq_ok {f : α → β} {b : β} (h : r.map f = .ok b) : ∃ a, r = .ok a ∧ f a = b := by
  cases r with
  | error e => cases h
  | ok a => cases h; exact ⟨a, rfl, rfl⟩

theorem exists_of_bind_eq_ok {f : α → Except ε β} {b : β} (h : r.bind f = .ok b) :
    ∃ a, r = .ok a ∧ f a = .ok b := by
  cases r with
  | error e => cases h
  | ok a => exact ⟨a, rfl, h⟩

end Results

namespace Naming

/-- Letters, digits and underscores, at least one. -/
def isStem (s : String) : Bool := s.toList.head?.isSome && Signature.isIdentifier s

/-- An identifier: a stem that does not start with a digit. -/
def isName (s : String) : Bool := s.toList.head?.any Token.isWordStart && Signature.isIdentifier s

theorem isStem_of_isName {s : String} (h : isName s = true) : isStem s = true := by
  simp only [isName, isStem, Bool.and_eq_true] at h ⊢
  obtain ⟨hstart, hid⟩ := h
  refine ⟨?_, hid⟩
  cases hs : s.toList.head? with
  | none => rw [hs] at hstart; cases hstart
  | some c => rfl

/-! ### Upper case -/

/-- There are few characters of plain names, so that a property of them can be checked code by code. -/
theorem forall_word {P : Char → Prop} {c : Char} (h : (c.isAlphanum || c == '_') = true)
    (hall : ∀ n < 128, ((Char.ofNat n).isAlphanum || Char.ofNat n == '_') = true → P (Char.ofNat n)) :
    P c := by
  have hc := hall c.toNat (Nat.lt_of_le_of_lt (code_of_word h).2 (by decide))
  rw [Char.ofNat_toNat] at hc
  exact hc h

theorem upperChar_of_word {c : Char} (h : (c.isAlphanum || c == '_') = true) :
    upperChar c = [c.toUpper] ∧ (c.toUpper.isAlphanum || c.toUpper == '_') = true ∧
      (Token.isWordStart c = true → Token.isWordStart c.toUpper = true) := by
  refine ⟨?_, forall_word (P := fun c => (c.toUpper.isAlphanum || c.toUpper == '_') = true ∧
    (Token.isWordStart c = true → Token.isWordStart c.toUpper = true)) h (by decide)⟩
  rw [upperChar, if_pos (Nat.lt_of_le_of_lt (code_of_word h).2 (by decide))]

theorem toList_capitalize (s : String) : (capitalize s).toList = capitalizeChars s.toList :=
  String.toList_ofList

theorem exists_cons_of_isStem {s : String} (h : isStem s = true) :
    ∃ c cs, s.toList = c :: cs ∧ (c.isAlphanum || c == '_') = true ∧
      ∀ d ∈ cs, (d.isAlphanum || d == '_') = true := by
  simp only [isStem, Signature.isIdentifier, Bool.and_eq_true] at h
  cases hs : s.toList with
  | nil => rw [hs] at h; cases h.1
  | cons c cs =>
    rw [hs, List.all_cons, Bool.and_eq_true] at h
    exact ⟨c, cs, rfl, h.2.1, List.all_eq_true.mp h.2.2⟩

theorem isStem_capitalize {s : String} (h : isStem s = true) : isStem (capitalize s) = true := by
  obtain ⟨c, cs, hs, hc, hcs⟩ := exists_cons_of_isStem h
  obtain ⟨hup, hword, -⟩ := upperChar_of_word hc
  rw [isStem, Signature.isIdentifier, toList_capitalize, hs, capitalizeChars, hup]
  simp only [List.singleton_append, List.head?_cons, Option.isSome_some, Bool.true_and, List.all_cons,
    hword, List.all_eq_true]
  exact hcs

theorem isName_capitalize {s : String} (h : isName s = true) : isName (capitalize s) = true := by
  obtain ⟨c, cs, hs, hc, -⟩ := exists_cons_of_isStem (isStem_of_isName h)
  obtain ⟨hup, -, hstart⟩ := upperChar_of_word hc
  have hstem := isStem_capitalize (isStem_of_isName h)
  simp only [isStem, isName, Bool.and_eq_true] at h hstem ⊢
  refine ⟨?_, hstem.2⟩
  rw [hs] at h
  rw [toList_capitalize, hs, capitalizeChars, hup]
  exact hstart h.1

end Naming

open Naming

/-! ### Tokens -/

namespace Token

/-- What a word of a line looks like. -/
def isWord (w : String) : Bool := w.toList.head?.any isWordStart && w.toList.all isWordPart

theorem isWordPart_of_isWordStart {c : Char} (h : isWordStart c = true) : isWordPart c = true := by
  simp only [isWordStart, isWordPart, Char.isAlphanum, Bool.or_eq_true] at h ⊢
  exact .inl (.inl (h.imp .inl id))

theorem mark?_ne_word (c : Char) (w : String) : mark? c ≠ some (.word w) := by
  unfold mark?
  split_ifs <;> simp

theorem isWord_of_mem_scan {column : Nat} {cs : List Char} {ts : List Token}
    (h : scan column cs = .ok ts) {w : String} {n : Nat} (hw : ⟨.word w, n⟩ ∈ ts) :
    isWord w = true := by
  fun_induction scan column cs generalizing ts with
  | case1 => cases h; cases hw
  | case2 column c cs hblank ih => exact ih h hw
  | case3 column c cs hblank mark hmark ih =>
    obtain ⟨us, hus, rfl⟩ := exists_of_map_eq_ok h
    rcases List.mem_cons.mp hw with heq | hmem
    · cases heq; exact absurd hmark (mark?_ne_word c w)
    · exact ih hus hmem
  | case4 column c cs hblank hmark hstart word =>
    rename_i ih
    obtain ⟨us, hus, rfl⟩ := exists_of_map_eq_ok h
    rcases List.mem_cons.mp hw with heq | hmem
    · cases heq
      rw [isWord, String.toList_ofList]
      simp only [word, List.head?_cons, Option.any_some, hstart, List.all_cons,
        isWordPart_of_isWordStart hstart, Bool.true_and]
      exact List.all_takeWhile
    · exact ih hus hmem
  | case5 => cases h

end Token

/-! ### Signatures -/

/-- The words of the tokens are those of a line. -/
def Token.Spelled (ts : List Token) : Prop := ∀ w n, ⟨.word w, n⟩ ∈ ts → Token.isWord w = true

theorem Token.Spelled.tail {t : Token} {ts : List Token} (h : Spelled (t :: ts)) : Spelled ts :=
  fun w n hw => h w n (List.mem_cons_of_mem t hw)

namespace Signature

/-- What is declared is an identifier, and the types are words of a line. -/
structure Spelled (d : Signature) : Prop where
  name : isName d.name = true
  fields : ∀ f ∈ d.fields, Token.isWord f.type = true
  result : Token.isWord d.result = true

theorem isWord_of_parseResult {n : Nat} {ts : List Token} {result : String}
    (h : parseResult n ts = .ok result) (hts : Token.Spelled ts) : Token.isWord result = true := by
  unfold parseResult at h
  split at h
  · next w column rest =>
    split at h
    · split at h
      · cases h; exact hts _ _ List.mem_cons_self
      · cases h
      · cases h
    · cases h
  · cases h

theorem isWord_of_parseFields {n : Nat} {ts : List Token} {fields : List FieldSpec} {result : String}
    (h : parseFields n ts = .ok (fields, result)) (hts : Token.Spelled ts) :
    (∀ f ∈ fields, Token.isWord f.type = true) ∧ Token.isWord result = true := by
  fun_induction parseFields n ts generalizing fields with
  | case1 column rest =>
    obtain ⟨r, hr, heq⟩ := exists_of_map_eq_ok h
    cases heq
    exact ⟨fun f hf => absurd hf List.not_mem_nil, isWord_of_parseResult hr hts.tail⟩
  | case2 name column hid colon type typeColumn rest hbalanced ih =>
    obtain ⟨⟨fs, r⟩, hr, heq⟩ := exists_of_map_eq_ok h
    cases heq
    obtain ⟨hfs, hresult⟩ := ih hr hts.tail.tail.tail
    refine ⟨fun f hf => ?_, hresult⟩
    rcases List.mem_cons.mp hf with rfl | hf
    · exact hts.tail.tail _ _ List.mem_cons_self
    · exact hfs f hf
  | _ => cases h

theorem spelled_of_parse {text : String} {d : Signature} (h : parse text = .ok d) : d.Spelled := by
  obtain ⟨row, hrow, h⟩ := exists_of_bind_eq_ok h
  obtain ⟨ts, hscan, rfl⟩ := exists_of_map_eq_ok hrow
  have hts : Token.Spelled ts := fun w n hw => Token.isWord_of_mem_scan hscan hw
  unfold ofRow at h
  split at h
  · next name column rest htokens =>
    replace htokens : ts = _ := htokens
    subst htokens
    split at h
    · next hid =>
      obtain ⟨⟨fields, result⟩, hfields, rfl⟩ := exists_of_map_eq_ok h
      obtain ⟨hfs, hresult⟩ := isWord_of_parseFields hfields hts.tail
      have hname := hts _ _ List.mem_cons_self
      rw [Token.isWord, Bool.and_eq_true] at hname
      exact ⟨by rw [isName, hname.1, hid]; rfl, hfs, hresult⟩
    · cases h
  · cases h

end Signature

/-! ### Types in a line -/

namespace TypeExpr
variable {e : TypeExpr} {cs : List Char} {n token : String}

theorem isBlank_of_isWordPart {c : Char} (h : Token.isWordPart c = true) : isBlank c = false := by
  rw [Token.isWordPart, Bool.or_eq_true, Bool.or_eq_true] at h
  rcases h with (h | h) | h
  · exact isBlank_of_word h
  · rw [eq_of_beq h]; decide
  · rw [eq_of_beq h]; decide

theorem leaf_ofBare (token : String) :
    ofBare token = name token ∨ ∃ c : Scalar, (ofBare token).leaf = name c.codeName := by
  unfold ofBare normalizeBare
  split
  · exact .inr ⟨.byte, rfl⟩
  · cases Scalar.ofToken? token with
    | none => exact .inl rfl
    | some c => exact .inr ⟨c, rfl⟩

/-- Under its brackets, a type in a line is a stem; without brackets it is the whole word. -/
theorem exists_bare_of_parseChars (h : parseChars cs = .ok e) (hcs : cs.all Token.isWordPart = true)
    (hne : cs ≠ []) :
    ∃ token, isStem token = true ∧ e.leaf = (ofBare token).leaf ∧
      (e.isGeneric = false → token.toList = cs) := by
  have hpart : ∀ c ∈ cs, Token.isWordPart c = true := List.all_eq_true.mp hcs
  have htrim : trim cs = cs := trim_of_blankless fun c hc => isBlank_of_isWordPart (hpart c hc)
  fun_induction parseChars cs generalizing e with
  | case1 cs token b hcut hok =>
    rename_i ih
    obtain ⟨a, ha, rfl⟩ := exists_of_map_eq_ok h
    replace hcut : cutBrackets (trim cs) = some b := hcut
    rw [htrim] at hcut
    obtain ⟨hparts, -, -⟩ := cutBrackets_eq_some_iff.mp hcut
    have hinner : ∀ c ∈ b.inner, Token.isWordPart c = true :=
      fun c hc => hpart c (by rw [hparts]; simp [hc])
    obtain ⟨bare, hstem, hleaf, -⟩ := ih ha (List.all_eq_true.mpr hinner) hok.2.1 hinner
      (trim_of_blankless fun c hc => isBlank_of_isWordPart (hinner c hc))
    exact ⟨bare, hstem, hleaf, fun hgen => by cases hgen⟩
  | case2 => cases h
  | case3 => cases h
  | case4 cs token hcut =>
    rename_i hany
    have htoken : token = cs := htrim
    rw [htoken] at h hany
    cases h
    refine ⟨String.ofList cs, ?_, rfl, fun _ => String.toList_ofList⟩
    simp only [hasBracket, List.any_eq_true, not_exists, not_and, Bool.or_eq_true] at hany
    simp only [isStem, Signature.isIdentifier, String.toList_ofList, Bool.and_eq_true,
      List.isSome_head?, List.all_eq_true]
    refine ⟨by simpa using hne, fun c hc => ?_⟩
    have hc' := hpart c hc
    rw [Token.isWordPart, Bool.or_assoc, Bool.or_eq_true] at hc'
    refine hc'.resolve_right fun hbracket => hany c hc ?_
    rwa [Bool.or_eq_true] at hbracket

theorem exists_bare_of_isWord (hw : Token.isWord token = true) (he : parse? token = some e) :
    ∃ bare, isStem bare = true ∧ e.leaf = (ofBare bare).leaf ∧ (e.isGeneric = false → bare = token) := by
  rw [Token.isWord, Bool.and_eq_true] at hw
  have hne : token.toList ≠ [] := by
    intro hnil
    rw [hnil] at hw
    cases hw.1
  obtain ⟨bare, hstem, hleaf, hplain⟩ :=
    exists_bare_of_parseChars (parse?_eq_some_iff.mp he) hw.2 hne
  exact ⟨bare, hstem, hleaf, fun hgen => String.toList_inj.mp (hplain hgen)⟩

/-- The leaf of a type in a line is a scalar or a stem. -/
theorem leaf_of_isWord (hw : Token.isWord token = true) (he : parse? token = some e)
    (hn : e.leaf = name n) : isStem n = true ∨ ∃ c : Scalar, n = c.codeName := by
  obtain ⟨bare, hstem, hleaf, -⟩ := exists_bare_of_isWord hw he
  rw [hleaf] at hn
  rcases leaf_ofBare bare with hbare | ⟨c, hc⟩
  · rw [hbare] at hn
    cases hn
    exact .inl hstem
  · rw [hc] at hn
    cases hn
    exact .inr ⟨c, rfl⟩

/-- A type in a line that has no argument is a scalar or an identifier. -/
theorem name_of_isWord (hw : Token.isWord token = true) (he : parse? token = some (name n)) :
    isName n = true ∨ ∃ c : Scalar, n = c.codeName := by
  obtain ⟨bare, hstem, hleaf, hplain⟩ := exists_bare_of_isWord hw he
  rw [hplain rfl] at hstem hleaf
  rcases leaf_ofBare token with hbare | ⟨c, hc⟩
  · rw [hbare] at hleaf
    cases hleaf
    rw [isStem, Bool.and_eq_true] at hstem
    rw [Token.isWord, Bool.and_eq_true] at hw
    exact .inl (by rw [isName, hw.1, hstem.2]; rfl)
  · rw [hc] at hleaf
    cases hleaf
    exact .inr ⟨c, rfl⟩

end TypeExpr

end TypeLang
