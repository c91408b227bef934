import TypeLang.Proofs.Identifiers
import TypeLang.Proofs.Occurrences

/-! # Documented fields

A tag that has the name of a field documents it. The two are read by different rules: a field is an
identifier, and the name of a tag has no digits. So a line with the name of a field and a text documents
the field if there is no digit in its name (`field?_of_digitless`), and a field with a digit cannot be
documented at all (`field?_of_digit`).

Case does not stand in the way, because putting an identifier into lower case twice is the same as once
(`lower_lower`). The declaration below the tag adds nothing to the documentation: it can be read, so it
is made of words, marks and blanks, and has no `@` (`Token.isLegible_of_scan`). An admission stores with
every field what the documentation says of it (`stored_of_accepts`), and looks for nothing else in it. -/

namespace TypeLang

open Text Naming

namespace Text

theorem isBlank_of_trim_eq_nil {cs : List Char} (h : trim cs = []) : ∀ c ∈ cs, isBlank c = true := by
  rw [trim, trimEnd, List.reverse_eq_nil_iff, List.dropWhile_eq_nil_iff] at h
  intro c hc
  rw [← List.takeWhile_append_dropWhile (p := isBlank) (l := cs)] at hc
  rcases List.mem_append.mp hc with hc | hc
  · exact List.mem_takeWhile_imp hc
  · exact h c (List.mem_reverse.mpr hc)

/-! ### Lower case of identifiers -/

theorem lowerAfter_of_word {cs : List Char} (h : ∀ c ∈ cs, (c.isAlphanum || c == '_') = true)
    (before : List Char) : lowerAfter before cs = cs.map Char.toLower := by
  induction cs generalizing before with
  | nil => rfl
  | cons c cs ih =>
    obtain ⟨hc, hcs⟩ := List.forall_mem_cons.mp h
    have hne : c ≠ 'Σ' := by
      rintro rfl
      exact absurd hc (by decide)
    rw [lowerAfter, if_neg hne, lowerChar_of_word hc, ih hcs, List.map_cons, List.singleton_append]

theorem toLower_of_word {c : Char} (h : (c.isAlphanum || c == '_') = true) :
    (c.toLower.isAlphanum || c.toLower == '_') = true ∧ c.toLower.toLower = c.toLower :=
  forall_word (P := fun c => (c.toLower.isAlphanum || c.toLower == '_') = true ∧
    c.toLower.toLower = c.toLower) h (by decide)

theorem lower_lower {s : String} (h : Signature.isIdentifier s = true) : lower (lower s) = lower s := by
  have hs : ∀ c ∈ s.toList, (c.isAlphanum || c == '_') = true := List.all_eq_true.mp h
  have hlower : ∀ c ∈ s.toList.map Char.toLower, (c.isAlphanum || c == '_') = true := by
    rw [List.forall_mem_map]
    exact fun c hc => (toLower_of_word (hs c hc)).1
  rw [lower, lower, String.toList_ofList, lowerAfter_of_word hs, lowerAfter_of_word hlower,
    List.map_map]
  congr 1
  exact List.map_congr_left fun c hc => (toLower_of_word (hs c hc)).2

end Text

/-! ### Lines that can be read -/

/-- Whether a declaration line may have this character. -/
def Token.isLegible (c : Char) : Bool := isBlank c || (mark? c).isSome || isWordPart c

theorem Token.isLegible_of_scan {n : Nat} {cs : List Char} {ts : List Token} (h : scan n cs = .ok ts) :
    ∀ c ∈ cs, isLegible c = true := by
  fun_induction scan n cs generalizing ts with
  | case1 => exact fun c hc => by cases hc
  | case2 n c cs hblank ih =>
    refine List.forall_mem_cons.mpr ⟨?_, ih h⟩
    rw [isLegible, hblank, Bool.true_or, Bool.true_or]
  | case3 n c cs hblank mark hmark ih =>
    obtain ⟨us, hus, -⟩ := exists_of_map_eq_ok h
    refine List.forall_mem_cons.mpr ⟨?_, ih hus⟩
    rw [isLegible, hmark, Option.isSome_some, Bool.or_true, Bool.true_or]
  | case4 n c cs hblank hmark hstart word =>
    rename_i ih
    obtain ⟨us, hus, -⟩ := exists_of_map_eq_ok h
    have hword : ∀ d ∈ c :: cs.takeWhile isWordPart, isLegible d = true := by
      intro d hd
      rw [isLegible, Bool.or_eq_true]
      rcases List.mem_cons.mp hd with rfl | hd
      · exact .inr (isWordPart_of_isWordStart hstart)
      · exact .inr (List.mem_takeWhile_imp hd)
    rw [← List.takeWhile_append_dropWhile (p := isWordPart) (l := cs), ← List.cons_append]
    intro d hd
    rcases List.mem_append.mp hd with hd | hd
    · exact hword d hd
    · exact ih hus d hd
  | case5 => cases h

namespace Signature
variable {line : String} {sig : Signature}

theorem isLegible_of_parse (h : parse line = .ok sig) :
    ∀ c ∈ line.toList, Token.isLegible c = true := by
  obtain ⟨ts, hscan, -⟩ := parse_eq_ok_iff.mp h
  exact Token.isLegible_of_scan hscan

theorem isComment_of_parse (h : parse line = .ok sig) : isComment line = false := by
  rw [Bool.eq_false_iff]
  intro hcomment
  have hmem : ∀ c, c ∈ trimStart line.toList → Token.isLegible c = true :=
    fun c hc => isLegible_of_parse h c ((List.dropWhile_sublist _).mem hc)
  rcases isComment_iff.mp hcomment with ⟨cs, hcs⟩ | ⟨cs, hcs⟩
  · exact absurd (hmem '/' (by rw [← hcs]; simp)) (by decide)
  · exact absurd (hmem '-' (by rw [← hcs]; simp)) (by decide)

theorem word_mem_of_parseFields {n : Nat} {ts : List Token} {fields : List FieldSpec} {result : String}
    (h : parseFields n ts = .ok (fields, result)) : ∀ f ∈ fields, ⟨.word f.name, f.column⟩ ∈ ts := by
  induction fields generalizing ts with
  | nil => exact fun f hf => by cases hf
  | cons f fs ih =>
    rcases parseFields_eq_ok_iff.mp h with ⟨hnil, -⟩ | ⟨f', fs', c, c', rest, heq, -, -, rfl, hrest⟩
    · cases hnil
    · cases heq
      refine List.forall_mem_cons.mpr ⟨List.mem_cons_self, fun x hx => ?_⟩
      have hmem := ih hrest x hx
      simp [hmem]

theorem isName_of_parse (h : parse line = .ok sig) : ∀ f ∈ sig.fields, isName f.name = true := by
  intro f hf
  obtain ⟨ts, hscan, -, c, rest, rfl, hrest⟩ := parse_eq_ok_iff.mp h
  have hword := Token.isWord_of_mem_scan hscan
    (List.mem_cons_of_mem _ (word_mem_of_parseFields hrest f hf))
  rw [Token.isWord, Bool.and_eq_true] at hword
  rw [isName, hword.1, isIdentifier_of_parseFields hrest f hf]
  rfl

end Signature

/-! ### The tag above a declaration -/

namespace DocTags
variable {f v line : String}

/-- The line that documents a field. -/
def tagLine (f v : String) : String := "//@" ++ f ++ " " ++ v

theorem toList_tagLine (f v : String) :
    (tagLine f v).toList = "//".toList ++ '@' :: ((f.toList ++ ' ' :: v.toList) ++ []) := by
  simp [tagLine]

theorem trimStart_tagLine (f v : String) : trimStart (tagLine f v).toList = (tagLine f v).toList := by
  rw [toList_tagLine]
  rfl

theorem isTagChar_iff_of_word {c : Char} (h : (c.isAlphanum || c == '_') = true) :
    isTagChar c = true ↔ c.isDigit = false :=
  forall_word (P := fun c => isTagChar c = true ↔ c.isDigit = false) h (by decide)

theorem tag?_of_digitless (hf : isName f = true) (hdigit : f.toList.any Char.isDigit = false)
    (hv : isBlankLine v = false) :
    tag? (f.toList ++ ' ' :: v.toList) = some (lower f, trimmed v) := by
  obtain ⟨d, ds, hds, -, -⟩ := exists_cons_of_isStem (isStem_of_isName hf)
  rw [isName, Bool.and_eq_true, Signature.isIdentifier, List.all_eq_true] at hf
  rw [List.any_eq_false] at hdigit
  refine tag?_eq_some_iff.mpr
    ⟨f.toList, v.toList, rfl, by simp [hds], fun c hc => ?_, fun hnil => ?_, ?_⟩
  · rw [isTagChar_iff_of_word (hf.2 c hc), Bool.eq_false_iff]
    exact hdigit c hc
  · rw [isBlankLine, List.all_eq_true.mpr (isBlank_of_trim_eq_nil hnil)] at hv
    cases hv
  · rw [String.ofList_toList, trimmed]

theorem not_carriesOn_tagLine (f v : String) : ¬ CarriesOn (tagLine f v) := by
  intro h
  rw [CarriesOn, trimStart_tagLine, toList_tagLine] at h
  simp at h

theorem tagsOf_tagLine (hf : isName f = true) (hdigit : f.toList.any Char.isDigit = false)
    (hat : '@' ∉ v.toList) (hv : isBlankLine v = false) :
    tagsOf (tagLine f v) = [(lower f, trimmed v)] := by
  have hseg : '@' ∉ f.toList ++ ' ' :: v.toList := by
    rw [isName, Bool.and_eq_true] at hf
    rw [List.mem_append, List.mem_cons]
    rintro (h | h | h)
    · exact absurd (List.all_eq_true.mp hf.2 _ h) (by decide)
    · cases h
    · exact hat h
  rw [tagsOf, if_neg (not_carriesOn_tagLine f v), toList_tagLine, tagsIn_append (by decide),
    tagsIn_segment hseg (.inl rfl), tag?_of_digitless hf hdigit hv]
  rfl

theorem addLine_of_parse {sig : Signature} (h : Signature.parse line = .ok sig) (docs : DocTags) :
    docs.addLine line = docs := by
  have hreads : ¬ CarriesOn line := by
    intro hc
    have hslashes : "//".toList <+: "//-".toList := by decide
    have hcomment := isComment_iff.mpr (.inl (hslashes.trans hc))
    rw [Signature.isComment_of_parse h] at hcomment
    cases hcomment
  have htags : tagsIn line.toList = [] := by
    rw [← List.append_nil line.toList, tagsIn_append]
    · rfl
    · exact fun hat => absurd (Signature.isLegible_of_parse h _ hat) (by decide)
  rw [addLine_eq, if_neg hreads, tagsOf, if_neg hreads, htags]
  rfl

theorem field?_singleton (hf : Signature.isIdentifier f = true) (text : String) :
    field? ⟨[(lower f, text)]⟩ f = some text := by
  have hself : get? ⟨[(lower f, text)]⟩ (lower f) = some text := by
    rw [get?, lower_lower hf]
    exact List.lookup_cons_self
  -- the tag with `param_` is another one, but would say the same
  rw [field?, hself]
  simp only [get?, List.lookup_cons, List.lookup_nil]
  split <;> rfl

theorem field?_of_digitless {sig : Signature} (h : Signature.parse line = .ok sig)
    (hf : isName f = true) (hdigit : f.toList.any Char.isDigit = false) (hat : '@' ∉ v.toList)
    (hv : isBlankLine v = false) : (ofLines [tagLine f v, line]).field? f = some (trimmed v) := by
  rw [ofLines, List.foldl_cons, List.foldl_cons, List.foldl_nil, addLine_of_parse h, addLine_eq,
    if_neg (not_carriesOn_tagLine f v), tagsOf_tagLine hf hdigit hat hv]
  rw [isName, Bool.and_eq_true] at hf
  exact field?_singleton hf.2 _

/-! ### Digits -/

theorem caseless_of_isDigit {c : Char} (h : c.isDigit = true) :
    isCaseless c = true ∧ isTagChar c = false := by
  have hword : (c.isAlphanum || c == '_') = true := by
    rw [Char.isAlphanum, h, Bool.or_true, Bool.true_or]
  exact forall_word (P := fun c => c.isDigit = true → isCaseless c = true ∧ isTagChar c = false) hword
    (by decide) h

/-- No tag is found under a key with a digit. -/
theorem get?_of_digit {c : Char} {key : String} (hc : c ∈ key.toList) (hdigit : c.isDigit = true)
    (lines : List String) : (ofLines lines).get? key = none := by
  obtain ⟨hcaseless, htag⟩ := caseless_of_isDigit hdigit
  refine get?_eq_none fun o ho => ?_
  have hmem : c ∈ (lower key).toList := (mem_lower_iff hcaseless key).mpr hc
  -- the digit would be in the name of the tag
  rw [← ho, Occurrence.key, mem_lower_iff hcaseless, String.toList_ofList] at hmem
  rw [o.tag.isTagChar c hmem] at htag
  cases htag

theorem field?_of_digit (hdigit : f.toList.any Char.isDigit = true) (lines : List String) :
    (ofLines lines).field? f = none := by
  obtain ⟨c, hc, hd⟩ := List.any_eq_true.mp hdigit
  have hlower : c ∈ (lower f).toList := (mem_lower_iff (caseless_of_isDigit hd).1 f).mpr hc
  have hparam : c ∈ ("param_" ++ lower f).toList := by
    rw [String.toList_append]
    exact List.mem_append_right _ hlower
  rw [field?, get?_of_digit hparam hd, get?_of_digit hlower hd]
  rfl

end DocTags

/-! ### Reading -/

namespace Block
open DocTags
variable {line : String} {sig : Signature}

/-- A declaration under a line that documents a field. -/
def documented (f v line : String) (n m : Nat) : Block := ⟨[⟨n, tagLine f v⟩, ⟨m, line⟩]⟩

theorem isComment_tagLine (f v : String) : isComment (tagLine f v) = true := by
  rw [isComment_iff, trimStart_tagLine, toList_tagLine]
  exact .inl (List.prefix_append _ _)

theorem read_documented (h : Signature.parse line = .ok sig) (hs : declaresScalar line = false)
    (f v : String) (n m : Nat) : (documented f v line n m).read =
      .item (.declaration ⟨sig, m, (documented f v line n m).docs⟩) := by
  have hline : (documented f v line n m).declarationLine? = some ⟨m, line⟩ := by
    simp [declarationLine?, documented, isComment_tagLine, Signature.isComment_of_parse h]
  simp only [read, hline, hs, h, Bool.false_eq_true, if_false]

end Block

/-! ### Storing -/

namespace Registry
variable {g : Registry}

theorem described_internFields (g : Registry) (fs : List FieldShape) :
    (g.internFields fs).1.map (fun f => (f.name, f.description)) =
      fs.map fun f => (f.name, f.description) := by
  induction fs generalizing g with
  | nil => rfl
  | cons f fs ih => simp [internFields, ih]

theorem fields_settle (r : Resolved) {id : TypeId} (hid : id < r.registry.size) :
    ((r.settle id).get id).fields = r.fields := by
  have hfill : ((r.registry.fill id r.fields).get id).fields = r.fields := by
    rw [fill, get_update _ hid, if_pos rfl]
  rw [Resolved.settle, setBase]
  refine (map_get_update (φ := TypeRecord.fields) (by intro r; rfl) _ _ _).trans ?_
  split
  · exact hfill
  · exact (map_get_update (φ := TypeRecord.fields) (by intro r; rfl) _ _ _).trans hfill

theorem function?_push (g : Registry) (f : FunctionRecord) : (g.push f).function? f.name = some f := by
  simp [function?, push]

theorem function?_putFunction (g : Registry) (name : String) (s : Shape) (d : Option String) :
    (g.putFunction name s d).function? name =
      some ⟨name, d, (g.resolveShape s).fields, (g.resolveShape s).result⟩ :=
  function?_push _ _

/-- The fields of a declared type, or the arguments of a function. -/
def fieldsOf (g : Registry) (kind : Admission.Kind) (name : String) : List Field :=
  match kind with
  | .types => (g.lookup? name).elim [] fun id => (g.get id).fields
  | .functions => (g.function? name).elim [] (·.arguments)

end Registry

namespace Admission
open Registry
variable {kind : Kind} {decl : Declaration} {g g' : Registry}

/-- The declaration is not one of a scalar, and passes the checks of its kind. -/
def Passes (kind : Kind) (decl : Declaration) (g : Registry) : Prop :=
  match kind with
  | .types => isScalarUnion decl.result = false ∧ checkType decl g = .ok ()
  | .functions => checkTokens decl = .ok () ∧ checkFunction decl.name g = .ok ()

theorem exists_accepts_iff (hg : g.Sound) : (∃ g', Accepts kind decl g g') ↔ Passes kind decl g := by
  cases kind with
  | types =>
    simp only [Accepts, Passes]
    rcases addType_cases hg decl with ⟨hu, hr⟩ | ⟨c, hu, hc, hr⟩ | ⟨s, hu, hs, hc, hr⟩
    · simp [hr, hu]
    · simp [hr, hc]
    · simp [hr, hu, hc]
  | functions =>
    simp only [Accepts, Passes]
    rcases addFunction_cases hg.filed decl with ⟨c, hc | hc, hr⟩ | ⟨s, hs, hc, hr⟩
    · simp [hr, hc]
    · simp [hr, hc]
    · simp [hr, hc, checkTokens_eq_ok_iff.mpr ⟨s, hs⟩]

/-- An admission stores every field with what the documentation says of it. -/
theorem stored_of_accepts (hg : g.Reachable) (h : Accepts kind decl g g') :
    (g'.fieldsOf kind decl.name).map (fun f => (f.name, f.description)) =
      decl.fields.map fun f => (f.name, decl.docs.field? f.name) := by
  cases kind with
  | types =>
    obtain ⟨id, hid⟩ := h
    rcases addType_cases hg.sound decl with ⟨-, hr⟩ | ⟨c, -, -, hr⟩ | ⟨s, -, hs, hc, hr⟩
    · rw [hr] at hid; cases hid
    · rw [hr] at hid; cases hid
    · rw [hr] at hid
      cases hid
      obtain ⟨hname, hfields, -⟩ := Declaration.shape?_eq_some_iff.mp hs
      have hfind := (announced_spec hg.sound s decl.docs.description?).1
      have hsound := (hg.sound.announce s.name decl.docs.description?).resolveShape s
      have hlookup : (g.putType s decl.docs.description?).lookup? decl.name =
          some (g.announce s.name decl.docs.description?).1 := by
        rw [lookup?_of_parse? hname, ← hfind]
        exact (sameKeys_settle _ _).findExpr? s.name
      rw [fieldsOf, hlookup, ← described_of_shapes hfields,
        ← described_internFields (g.announce s.name decl.docs.description?).2]
      exact congrArg _ (fields_settle _ (hsound.lt_size_of_findExpr? hfind))
  | functions =>
    rcases addFunction_cases hg.sound.filed decl with ⟨c, -, hr⟩ | ⟨s, hs, -, hr⟩
    · rw [Accepts, hr] at h; cases h
    · rw [Accepts, hr] at h
      cases h
      obtain ⟨-, hfields, -⟩ := Declaration.shape?_eq_some_iff.mp hs
      rw [fieldsOf, function?_putFunction,
        ← described_of_shapes hfields, ← described_internFields g]
      rfl

theorem stored_description {name : String} (hg : g.Reachable) (h : Accepts kind decl g g')
    (hname : name ∈ decl.fields.map (·.name)) :
    (∃ x ∈ g'.fieldsOf kind decl.name, x.name = name) ∧
      ∀ x ∈ g'.fieldsOf kind decl.name, x.name = name → x.description = decl.docs.field? name := by
  have hstored := stored_of_accepts hg h
  constructor
  · obtain ⟨f, hf, rfl⟩ := List.mem_map.mp hname
    have hmem : (f.name, decl.docs.field? f.name) ∈
        (g'.fieldsOf kind decl.name).map fun x => (x.name, x.description) := by
      rw [hstored]
      exact List.mem_map_of_mem hf
    obtain ⟨x, hx, heq⟩ := List.mem_map.mp hmem
    exact ⟨x, hx, congrArg Prod.fst heq⟩
  · rintro x hx rfl
    have hmem : (x.name, x.description) ∈
        decl.fields.map fun f => (f.name, decl.docs.field? f.name) := by
      rw [← hstored]
      exact List.mem_map_of_mem hx
    obtain ⟨f, -, heq⟩ := List.mem_map.mp hmem
    obtain ⟨hfst, hsnd⟩ := Prod.mk.inj heq
    rw [← hsnd, hfst]

end Admission

open Admission Block Registry

/-- A line with the name of a field and a text, above a declaration that has the field, is read with the
declaration and documents the field, unless there is a digit in the name; such a field has no
documentation in any block. The field is stored with its documentation when the declaration is admitted,
as a type or as a function, and for this only the checks count, which do not look at it. -/
theorem documented_iff_digitless {f v line : String} {sig : Signature}
    (hparse : Signature.parse line = .ok sig) (hscalar : declaresScalar line = false)
    (hf : f ∈ sig.fields.map (·.name)) (hat : '@' ∉ v.toList) (hv : isBlankLine v = false) (n m : Nat) :
    let docs := (documented f v line n m).docs
    (documented f v line n m).read = .item (.declaration ⟨sig, m, docs⟩) ∧
    (f.toList.any Char.isDigit = false → docs.field? f = some (trimmed v)) ∧
    (f.toList.any Char.isDigit = true → ∀ b : Block, b.docs.field? f = none) ∧
    ∀ (kind : Kind) (g : Registry), g.Reachable →
      ((∃ g', Accepts kind ⟨sig, m, docs⟩ g g') ↔ Passes kind ⟨sig, m, docs⟩ g) ∧
      ∀ g', Accepts kind ⟨sig, m, docs⟩ g g' → (∃ x ∈ g'.fieldsOf kind sig.name, x.name = f) ∧
        ∀ x ∈ g'.fieldsOf kind sig.name, x.name = f → x.description = docs.field? f := by
  intro docs
  have hname : isName f = true := by
    obtain ⟨field, hfield, rfl⟩ := List.mem_map.mp hf
    exact Signature.isName_of_parse hparse field hfield
  refine ⟨read_documented hparse hscalar f v n m, fun hdigit => ?_, fun hdigit b => ?_,
    fun kind g hg => ?_⟩
  · exact DocTags.field?_of_digitless hparse hname hdigit hat hv
  · exact DocTags.field?_of_digit hdigit _
  · exact ⟨exists_accepts_iff hg.sound, fun g' h => (stored_description hg h hf :)⟩

/-- A name with a capital letter and with an underscore at its end, and a text with blanks around it. -/
theorem documented_iff_digitless_photo :
    let docs := (documented "bigPhoto_" "  Its picture: ./a b " "chat bigPhoto_:bytes = Chat;" 4 5).docs
    docs.field? "bigPhoto_" = some "Its picture: ./a b" ∧
    ∃ g', Accepts .types ⟨⟨"chat", [⟨"bigPhoto_", "bytes", 6⟩], "Chat"⟩, 5, docs⟩ initial g' ∧
      ∃ x ∈ g'.fieldsOf .types "chat", x.name = "bigPhoto_" ∧
        x.description = some "Its picture: ./a b" := by
  intro docs
  have hparse : Signature.parse "chat bigPhoto_:bytes = Chat;" =
      .ok ⟨"chat", [⟨"bigPhoto_", "bytes", 6⟩], "Chat"⟩ := by decide +kernel
  obtain ⟨-, hfield, -, hbuild⟩ := documented_iff_digitless (f := "bigPhoto_")
    (v := "  Its picture: ./a b ") hparse (by decide +kernel) (by decide) (by decide) (by decide) 4 5
  have htext : docs.field? "bigPhoto_" = some "Its picture: ./a b" :=
    (hfield (by decide)).trans (by decide +kernel)
  obtain ⟨haccepts, hstored⟩ := hbuild .types initial .initial
  obtain ⟨g', h⟩ := haccepts.mpr ⟨by decide +kernel, by decide +kernel⟩
  obtain ⟨⟨x, hx, hname⟩, hdescription⟩ := hstored g' h
  exact ⟨htext, g', h, x, hx, hname, (hdescription x hx hname).trans htext⟩

/-- A digit ends the name of the tag, and there is no space behind it. -/
theorem digit_undocumented :
    ¬ ∀ (f v line : String) (sig : Signature) (n m : Nat), Signature.parse line = .ok sig →
      declaresScalar line = false → f ∈ sig.fields.map (·.name) → '@' ∉ v.toList →
      isBlankLine v = false → (documented f v line n m).docs.field? f = some (trimmed v) := by
  intro hall
  have htext := hall "x1" "text" "a x1:int32 = A;" ⟨"a", [⟨"x1", "int32", 3⟩], "A"⟩ 1 2
    (by decide +kernel) (by decide +kernel) (by decide) (by decide) (by decide)
  revert htext
  decide +kernel

end TypeLang
