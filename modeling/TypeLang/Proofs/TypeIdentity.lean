import TypeLang.Proofs.Representation

/-! # One type, many spellings

A type that has a place keeps it through all that is done to the registry (`findExpr?_performAll`).
Hence two tokens that are resolved at different times lead to one place exactly if they stand for one
expression, and without blanks that is to say that their normal spellings agree. -/

namespace TypeLang.Registry
open Admission
variable {g g' : Registry} {id : TypeId} {e : TypeExpr}

/-- The registry after several operations. -/
def performAll (ops : List Operation) (g : Registry) : Registry :=
  ops.foldl (fun g op => op.perform g) g

theorem performAll_of_stable {P : Registry → Prop} (hP : Stable P) (ops : List Operation) (hg : P g) :
    P (performAll ops g) := by
  induction ops generalizing g with
  | nil => exact hg
  | cons op ops ih => exact ih (perform_of_stable hP op hg)

theorem Reachable.performAll (hg : g.Reachable) (ops : List Operation) :
    (performAll ops g).Reachable := by
  induction ops generalizing g with
  | nil => exact hg
  | cons op ops ih => exact ih (hg.perform op)

theorem Reachable.intern {token : String} (hg : g.Reachable) (he : TypeExpr.parse? token = some e) :
    (g.intern e).2.Reachable := by
  have hperform : Operation.perform (.resolve token) g = (g.intern e).2 :=
    after_of_ok (run_resolve_of_parse? he g)
  rw [← hperform]
  exact hg.perform _

/-! ### Places stay -/

theorem stable_findExpr? (e : TypeExpr) (id : TypeId) :
    Stable fun g => g.findExpr? e = some id := by
  refine .of_identity (fun g token x _ hg => ?_) (fun g j f hf hg => ?_) fun g f _ hg => ?_
  · exact (grows_intern g x).findExpr? hg
  · rw [(sameKeys_update g j f hf.argument hf.name).findExpr?]
    exact hg
  · rw [(sameKeys_push g f).findExpr?]
    exact hg

theorem findExpr?_performAll (h : g.findExpr? e = some id) (ops : List Operation) :
    (performAll ops g).findExpr? e = some id :=
  performAll_of_stable (stable_findExpr? e id) ops h

theorem Sound.name_of_findExpr? (hg : g.Sound) (h : g.findExpr? e = some id) :
    (g.get? id).map (·.name) = some e.text := by
  have hid := hg.lt_size_of_findExpr? h
  have hname := hg.name_get id
  rw [hg.exprAt_of_findExpr? h] at hname
  rw [← hname, get_eq_getElem hid, get?, Array.getElem?_eq_getElem hid, Option.map_some]

/-- The place of a type before others were named, and that of a type named now, are the same for the
same expression only. -/
theorem fst_intern_eq_iff {x : TypeExpr} (hg : g.Sound) (h : g.findExpr? e = some id) :
    id = (g.intern x).1 ↔ e = x := by
  have hs := hg.intern x
  have hx := findExpr?_intern g x
  have he := (grows_intern g x).findExpr? h
  constructor
  · intro hid
    have hexpr := hs.exprAt_of_findExpr? he
    rw [hid, hs.exprAt_of_findExpr? hx] at hexpr
    exact hexpr.symm
  · rintro rfl
    rw [he] at hx
    exact Option.some.inj hx

/-- Of two tokens without blanks, the second leads to the place of the first exactly if they have the
same normal spelling, whatever was done to the registry in between; and the record of a token bears
its normal spelling for good. -/
theorem same_place_iff_normalize {t u : String} (hg : g.Reachable)
    (ht : Blankless t.toList) (hu : Blankless u.toList)
    (hct : checkToken t = .ok ()) (hcu : checkToken u = .ok ()) :
    ∃ i g₁, (resolve t).run g = .ok i g₁ ∧ ∀ ops : List Operation,
      ((performAll ops g₁).get? i).map (·.name) = some (normalize t) ∧
      ∃ j g₃, (resolve u).run (performAll ops g₁) = .ok j g₃ ∧ (i = j ↔ normalize t = normalize u) := by
  obtain ⟨e, he⟩ := checkToken_eq_ok_iff.mp hct
  obtain ⟨x, hx⟩ := checkToken_eq_ok_iff.mp hcu
  have hpe := TypeExpr.parse?_eq_some_iff.mp he
  have hpx := TypeExpr.parse?_eq_some_iff.mp hx
  have hte := TypeExpr.normalize_of_parse ht hpe
  have hux := TypeExpr.normalize_of_parse hu hpx
  refine ⟨(g.intern e).1, (g.intern e).2, run_resolve_of_parse? he g, fun ops => ?_⟩
  have hfind := findExpr?_performAll (findExpr?_intern g e) ops
  have hsound := ((hg.intern he).performAll ops).sound
  refine ⟨?_, _, _, run_resolve_of_parse? hx _, ?_⟩
  · rw [hte]
    exact hsound.name_of_findExpr? hfind
  · rw [fst_intern_eq_iff hsound hfind, hte, hux]
    constructor
    · exact congrArg TypeExpr.text
    · exact (TypeExpr.wellFormed_of_parse hpe).text_inj (TypeExpr.wellFormed_of_parse hpx)

/-- The string of bytes in two spellings, with other changes between them. -/
theorem same_place_iff_normalize_bytes :
    (Blankless "vector<bytes>".toList ∧ Blankless "vector<vector<byte>>".toList) ∧
    checkToken "vector<bytes>" = .ok () ∧ checkToken "vector<vector<byte>>" = .ok () ∧
    ∃ i g₁, (resolve "vector<bytes>").run initial = .ok i g₁ ∧
      ∃ g₃, (resolve "vector<vector<byte>>").run
        (performAll [.resolve "vector<int53>", .markUnion i, .describe 1 none] g₁) = .ok i g₃ := by
  have ht : Blankless "vector<bytes>".toList := by decide +kernel
  have hu : Blankless "vector<vector<byte>>".toList := by decide +kernel
  have hct : checkToken "vector<bytes>" = .ok () := by decide +kernel
  have hcu : checkToken "vector<vector<byte>>" = .ok () := by decide +kernel
  have hnorm : normalize "vector<bytes>" = normalize "vector<vector<byte>>" := by decide +kernel
  obtain ⟨i, g₁, hresolve, hops⟩ := same_place_iff_normalize .initial ht hu hct hcu
  obtain ⟨-, j, g₃, hj, hiff⟩ := hops [.resolve "vector<int53>", .markUnion i, .describe 1 none]
  obtain rfl := hiff.mpr hnorm
  exact ⟨⟨ht, hu⟩, hct, hcu, i, g₁, hresolve, g₃, hj⟩

end TypeLang.Registry
