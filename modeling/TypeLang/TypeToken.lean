import TypeLang.Scalar
import TypeLang.Text.Basic

/-! # Type tokens

A schema refers to a type by a token: a name, or a name applied to one argument, `vector<int53>`.
`TokenLevel.ofToken` takes the outermost level of a token apart, and whoever reads a token goes down
through its levels (`weight_inner_lt`). `normalize` gives a token its normal spelling without asking
whether it is well formed. -/

namespace TypeLang

open Text

/-- The parts of `before<inner>after`. -/
structure Bracketed where
  before : List Char
  inner : List Char
  after : List Char

/-- Cuts a token at its first `<` and its last `>`, if they stand in this order. -/
def cutBrackets (cs : List Char) : Option Bracketed :=
  match cs.dropWhile (· != '<') with
  | [] => none
  | _ :: rest =>
    match rest.reverse.dropWhile (· != '>') with
    | [] => none
    | _ :: inner =>
      some ⟨cs.takeWhile (· != '<'), inner.reverse, (rest.reverse.takeWhile (· != '>')).reverse⟩

theorem inner_sublist {cs : List Char} {b : Bracketed} (h : cutBrackets cs = some b) :
    b.inner.Sublist cs ∧ b.inner.length < cs.length := by
  unfold cutBrackets at h
  split at h
  · contradiction
  next rest hrest =>
    split at h
    · contradiction
    next inner hinner =>
      obtain rfl := Option.some.inj h
      have h₁ := List.dropWhile_sublist (· != '<') (l := cs)
      have h₂ := (List.dropWhile_sublist (· != '>') (l := rest.reverse)).reverse
      rw [hrest] at h₁
      rw [hinner, List.reverse_cons, List.reverse_reverse] at h₂
      have h₃ := h₂.length_le
      have h₄ := h₁.length_le
      rw [List.length_append, List.length_singleton] at h₃
      rw [List.length_cons] at h₄
      refine ⟨((List.sublist_append_left _ _).trans h₂).trans ((List.sublist_cons_self _ _).trans h₁), ?_⟩
      show inner.reverse.length < cs.length
      omega

/-- The normal spelling of a token without brackets. -/
def normalizeBare (token : String) : String :=
  if token = bytesToken then bytesExpansion
  else (Scalar.ofToken? token).elim token Scalar.codeName

/-- The normal spelling of a token: every bare token in it, at any level, is replaced by its normal
spelling, and all else stays. -/
def normalizeChars (cs : List Char) : List Char :=
  match _h : cutBrackets cs with
  | some b => b.before ++ '<' :: normalizeChars b.inner ++ '>' :: b.after
  | none => (normalizeBare (String.ofList cs)).toList
termination_by cs.length
decreasing_by exact (inner_sublist _h).2

/-- The normal spelling, as a string. -/
def normalize (token : String) : String := String.ofList (normalizeChars token.toList)

/-! ### Levels -/

/-- What the outermost level of a token says. -/
inductive TokenLevel where
  | bare (token : String)
  | generic (outer inner : String)
  | malformed (token : String)
deriving DecidableEq, Repr

/-- Whether a bracket stands in the text. -/
def hasBracket (cs : List Char) : Bool := cs.any fun c => c == '<' || c == '>'

namespace TokenLevel

/-- The outermost level of a token. Blanks around it do not count, and neither side of the first `<` may
be empty, nor may anything follow the last `>`. -/
def ofToken (token : String) : TokenLevel :=
  let cs := trim token.toList
  match cutBrackets cs with
  | some b =>
    if b.before ≠ [] ∧ b.inner ≠ [] ∧ b.after = [] then
      .generic (String.ofList b.before) (String.ofList b.inner)
    else .malformed (String.ofList cs)
  | none => if hasBracket cs then .malformed (String.ofList cs) else .bare (String.ofList cs)

variable {token t outer inner : String}

theorem cut_of_generic (h : ofToken token = .generic outer inner) :
    ∃ b, cutBrackets (trim token.toList) = some b ∧ inner = String.ofList b.inner := by
  simp only [ofToken] at h
  split at h
  next b hb =>
    split at h <;> cases h
    exact ⟨b, hb, rfl⟩
  next => split at h <;> cases h

theorem toList_of_bare (h : ofToken token = .bare t) : t.toList = trim token.toList := by
  simp only [ofToken] at h
  split at h
  · split at h <;> cases h
  · split at h <;> cases h
    rw [String.toList_ofList]

/-- What becomes less from level to level. The expansion of `bytes` is longer, but it has an `s` less. -/
def weight (token : String) : Nat := token.toList.length + 8 * token.toList.count 's'

theorem weight_le_of_sublist (h : t.toList.Sublist token.toList) : weight t ≤ weight token :=
  Nat.add_le_add h.length_le (Nat.mul_le_mul_left 8 (h.count_le 's'))

theorem weight_inner_lt (h : ofToken token = .generic outer inner) : weight inner < weight token := by
  obtain ⟨b, hb, rfl⟩ := cut_of_generic h
  obtain ⟨hsub, hlt⟩ := inner_sublist hb
  have htrim := trim_sublist token.toList
  rw [weight, weight, String.toList_ofList]
  exact Nat.add_lt_add_of_lt_of_le (Nat.lt_of_lt_of_le hlt htrim.length_le)
    (Nat.mul_le_mul_left 8 ((hsub.trans htrim).count_le 's'))

theorem weight_expansion_lt (h : ofToken token = .bare t) (hbytes : t = bytesToken) :
    weight bytesExpansion < weight token := by
  refine Nat.lt_of_lt_of_le (m := weight t) (by rw [hbytes]; decide) (weight_le_of_sublist ?_)
  rw [toList_of_bare h]
  exact trim_sublist _

end TokenLevel

end TypeLang
