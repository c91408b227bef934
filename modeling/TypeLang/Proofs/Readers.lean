import TypeLang.Proofs.Sound
import TypeLang.Proofs.Spelling

/-! # Three readers of a token

A token is checked, resolved and looked up, and each of the three goes down through its levels in a
recursion of its own. What they read is told by `TypeExpr.parse`: the check fails where reading fails,
resolving interns the expression (`run_resolve`), and looking up finds it (`lookup?_of_parse`). Resolving
meets a malformed level before it has made any record, because the level is inside all those that wait for
it. -/

namespace TypeLang

open Text

variable {token t outer inner : String}

theorem hasBracket_iff {cs : List Char} : hasBracket cs = true ↔ '<' ∈ cs ∨ '>' ∈ cs := by
  simp [hasBracket, and_or_left, exists_or]

theorem normalize_of_not_hasBracket (h : hasBracket t.toList = false) :
    normalize t = normalizeBare t := by
  have hopen : '<' ∉ t.toList := by
    intro hmem
    rw [hasBracket_iff.mpr (.inl hmem)] at h
    cases h
  rw [normalize, normalizeChars]
  split
  next b hb =>
    rw [cutBrackets_eq_none hopen] at hb
    cases hb
  next => simp

/-- A scalar has no bracket in either spelling, and neither has the word for a string of bytes. -/
theorem normalizeBare_of_hasBracket (h : hasBracket t.toList = true) :
    normalizeBare t = t := by
  unfold normalizeBare
  split
  next hbytes =>
    rw [hbytes] at h
    cases h
  next =>
    cases hs : Scalar.ofToken? t with
    | none => rfl
    | some s =>
      have hname := List.find?_some hs
      simp only [Bool.or_eq_true, beq_iff_eq] at hname
      have hplain : hasBracket s.schemaName.toList = false ∧ hasBracket s.codeName.toList = false := by
        cases s <;> decide
      rcases hname with rfl | rfl
      · rw [hplain.1] at h; cases h
      · rw [hplain.2] at h; cases h

theorem hasBracket_normalize (h : hasBracket t.toList = true) :
    hasBracket (normalize t).toList = true := by
  rw [normalize, String.toList_ofList, normalizeChars]
  split
  next b hb => simp [hasBracket]
  next => rwa [String.ofList_toList, normalizeBare_of_hasBracket h]

namespace TokenLevel

theorem hasBracket_of_bare (h : ofToken token = .bare t) : hasBracket t.toList = false := by
  simp only [ofToken] at h
  split at h
  · split at h <;> cases h
  · split at h
    · cases h
    next hnot =>
      cases h
      rw [String.toList_ofList]
      exact Bool.eq_false_iff.mpr hnot

theorem hasBracket_of_malformed (h : ofToken token = .malformed t) : hasBracket t.toList = true := by
  simp only [ofToken] at h
  split at h
  next b hb =>
    split at h
    · cases h
    · cases h
      obtain ⟨hcs, -, -⟩ := cutBrackets_eq_some_iff.mp hb
      rw [String.toList_ofList, hcs]
      simp [hasBracket]
  next =>
    split at h
    next hbracket =>
      cases h
      rwa [String.toList_ofList]
    · cases h

end TokenLevel

namespace TypeExpr

theorem parse_of_malformed (h : TokenLevel.ofToken token = .malformed t) : parse token = .error ⟨t⟩ := by
  rw [parse_eq_level, h]

theorem parse_of_generic (h : TokenLevel.ofToken token = .generic outer inner) :
    parse token = (parse inner).map (generic outer) := by
  rw [parse_eq_level, h]

theorem parse_of_bytes (h : TokenLevel.ofToken token = .bare bytesToken) :
    parse token = parse bytesExpansion := by
  have hexpansion : parse bytesExpansion = .ok (ofBare bytesToken) := by decide +kernel
  rw [parse_eq_level, h, hexpansion]

theorem parse_of_bare (h : TokenLevel.ofToken token = .bare t) (ht : t ≠ bytesToken) :
    parse token = .ok (name (normalize t)) := by
  rw [parse_eq_level, h]
  show Except.ok (ofBare t) = _
  rw [ofBare, if_neg ht, normalize_of_not_hasBracket (TokenLevel.hasBracket_of_bare h)]

end TypeExpr

namespace Registry
open TypeExpr
variable {e : TypeExpr}

theorem checkToken_eq (token : String) : checkToken token =
    match parse token with
    | .ok _ => .ok ()
    | .error m => .error (.malformed m.token) := by
  fun_induction checkToken token with
  | case1 token t h => rw [parse_of_malformed h]
  | case2 token outer inner h ih =>
    rw [parse_of_generic h, ih]
    cases parse inner <;> rfl
  | case3 token t h =>
    by_cases ht : t = bytesToken
    · subst ht
      rw [parse_of_bytes h]
      decide +kernel
    · rw [parse_of_bare h ht]

/-- Resolving a token interns what is read from it. If nothing is, the registry is left as it was. -/
theorem run_resolve (token : String) (g : Registry) : (resolve token).run g =
    match parse token with
    | .ok e => .ok (g.intern e).1 (g.intern e).2
    | .error m => .error (.malformed m.token) g := by
  fun_induction resolve token with
  | case1 token t h => rw [parse_of_malformed h]; rfl
  | case2 token outer inner h ih =>
    rw [parse_of_generic h, EStateM.run_bind, ih]
    cases parse inner <;> rfl
  | case3 token h ih => rw [parse_of_bytes h, ih]
  | case4 token t h ht => rw [parse_of_bare h ht]; rfl

theorem lookup?_of_parse {g : Registry} (h : parse token = .ok e) : g.lookup? token = g.findExpr? e := by
  fun_induction lookup? g token generalizing e with
  | case1 token t hlevel => rw [parse_of_malformed hlevel] at h; cases h
  | case2 token outer inner hlevel ih =>
    rw [parse_of_generic hlevel] at h
    cases hinner : parse inner with
    | error m => rw [hinner] at h; cases h
    | ok a =>
      rw [hinner] at h
      cases h
      rw [ih hinner]
      rfl
  | case3 token hlevel ih => exact ih (parse_of_bytes hlevel ▸ h)
  | case4 token t hlevel ht =>
    rw [parse_of_bare hlevel ht] at h
    cases h
    rfl

end Registry

end TypeLang
