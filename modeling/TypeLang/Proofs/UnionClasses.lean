import TypeLang.Proofs.Emitted
import TypeLang.Proofs.Unions

/-! # The class of a union

A union has no unit. Its class is laid out in the units of its members: a member whose class has
another name is nested in the class of the union, and a member whose class has the same name stands
in for it. Names are compared without their case, so a member of the second kind may be spelled
otherwise than references to the union are (`name_top_typeUnit`). -/

namespace TypeLang

open Naming

namespace Registry
variable {g : Registry} {u v : TypeId}

theorem sameLetters_self (s : String) : sameLetters s s = true := beq_self_eq_true _

theorem sameLetters_comm (s t : String) : sameLetters s t = sameLetters t s := by
  rw [sameLetters, sameLetters, Bool.eq_iff_iff, beq_iff_eq, beq_iff_eq, eq_comm]

/-- A union that is no scalar and has no argument is spelled by its name alone. -/
theorem codeType_of_isUnion (hg : g.Built) (hu : (g.get u).isUnion = true)
    (harg : (g.get u).argument = none) (hs : (g.get u).scalar = none) :
    g.codeType u = .named none (pascal (g.get u).name) := by
  rw [codeType, harg]
  simp only [leafCodeType, hs, distinctBase?_of_isUnion hg (lt_size_of_isUnion hu) hu, Option.map_none]

/-- The outermost class in the unit of a member is that of the union, unless the two have the same
letters. -/
theorem name_top_typeUnit (hv : v ∈ g.variants u) :
    (g.typeUnit v).top.name =
      if sameLetters (pascal (g.get u).name) (pascal (g.get v).name) then pascal (g.get v).name
      else pascal (g.get u).name := by
  obtain ⟨-, hbase, -⟩ := mem_variants_iff.mp hv
  simp only [typeUnit, distinctBase?, hbase, Option.bind_some]
  cases sameLetters (pascal (g.get u).name) (pascal (g.get v).name) with
  | true => simp only [↓reduceIte, typeClass]
  | false => simp only [Bool.false_eq_true, ↓reduceIte]

theorem hasUnit_of_mem_variants (hg : g.Built) (hv : v ∈ g.variants u)
    (harg : (g.get v).argument = none) : g.hasUnit v = true := by
  obtain ⟨hlt, hbase, -⟩ := mem_variants_iff.mp hv
  cases hc : (g.get v).isConcrete with
  | false =>
    rw [(hg.idle hlt hc).2] at hbase
    cases hbase
  | true =>
    obtain ⟨-, hs⟩ := isConcrete_iff.mp hc
    rw [hasUnit, hs, harg, (hg.base hlt hc).1]
    rfl

theorem typeUnit_mem_unitsOf_iff (hg : g.Built) (hv : v < g.size) :
    g.typeUnit v ∈ g.unitsOf .object ↔ g.hasUnit v = true := by
  rw [unitsOf_object, List.mem_map]
  constructor
  · rintro ⟨j, hj, heq⟩
    obtain ⟨hlt, hunit⟩ := List.mem_filter.mp hj
    -- the units of two types have different discriminators
    have hname := congrArg SourceUnit.discriminator? heq
    rw [discriminator?_typeUnit, discriminator?_typeUnit, Option.some.injEq] at hname
    rwa [hg.reachable.wellSpelled.name_inj (List.mem_range.mp hlt) hv hname] at hunit
  · intro hunit
    exact ⟨v, List.mem_filter.mpr ⟨List.mem_range.mpr hv, hunit⟩, rfl⟩

theorem mem_unitsOf_of_mem_variants (hg : g.Built) (hv : v ∈ g.variants u)
    (harg : (g.get v).argument = none) : g.typeUnit v ∈ g.unitsOf .object :=
  (typeUnit_mem_unitsOf_iff hg (mem_variants_iff.mp hv).1).mpr (hasUnit_of_mem_variants hg hv harg)

theorem argument_of_mem_unitsOf (hg : g.Built) (hv : v < g.size)
    (h : g.typeUnit v ∈ g.unitsOf .object) : (g.get v).argument = none := by
  have hunit := (typeUnit_mem_unitsOf_iff hg hv).mp h
  simp only [hasUnit, Bool.and_eq_true, Option.isNone_iff_eq_none] at hunit
  exact hunit.1.2

theorem sameLetters_name_top (hv : v ∈ g.variants u) :
    sameLetters (g.typeUnit v).top.name (pascal (g.get u).name) = true := by
  rw [name_top_typeUnit hv]
  split
  next h => rwa [sameLetters_comm]
  next => exact sameLetters_self _

theorem name_top_eq_iff (hv : v ∈ g.variants u) :
    (g.typeUnit v).top.name = pascal (g.get u).name ↔
      pascal (g.get v).name = pascal (g.get u).name ∨
        sameLetters (pascal (g.get v).name) (pascal (g.get u).name) = false := by
  rw [name_top_typeUnit hv, sameLetters_comm]
  cases h : sameLetters (pascal (g.get v).name) (pascal (g.get u).name) with
  | true => simp only [↓reduceIte, Bool.true_eq_false, or_false]
  | false => simp only [Bool.false_eq_true, ↓reduceIte, or_true]

end Registry

open Registry

/-- A union that is no scalar and has no argument is spelled by its name. If it has a member without
an argument, then there is a unit whose outermost class has this name up to case; and one of its
members gives a class of exactly this name if and only if the name of one of them, as a class, is the
same or differs in more than case. -/
theorem union_class_named (calls : List Call) :
    let g := (Compilation.ofCalls calls).registry
    ∀ u, (g.get u).isUnion = true → (g.get u).argument = none → (g.get u).scalar = none →
      g.codeType u = .named none (pascal (g.get u).name) ∧
      ((∃ v ∈ g.variants u, (g.get v).argument = none) →
        ∃ s ∈ g.unitsOf .object, sameLetters s.top.name (g.codeType u).text = true) ∧
      ((∃ v ∈ g.variants u, (g.get v).argument = none ∧
          (pascal (g.get v).name = pascal (g.get u).name ∨
            sameLetters (pascal (g.get v).name) (pascal (g.get u).name) = false)) ↔
        ∃ v ∈ g.variants u, g.typeUnit v ∈ g.unitsOf .object ∧
          (g.typeUnit v).top.name = (g.codeType u).text) := by
  intro g u hu harg hs
  have hg : g.Built := built_ofCalls calls
  have hcode := codeType_of_isUnion hg hu harg hs
  have htext : (g.codeType u).text = pascal (g.get u).name := by rw [hcode, CodeType.text]
  rw [htext]
  refine ⟨hcode, ?_, ?_, ?_⟩
  · rintro ⟨v, hv, hplain⟩
    exact ⟨g.typeUnit v, mem_unitsOf_of_mem_variants hg hv hplain, sameLetters_name_top hv⟩
  · rintro ⟨v, hv, hplain, hname⟩
    exact ⟨v, hv, mem_unitsOf_of_mem_variants hg hv hplain, (name_top_eq_iff hv).mpr hname⟩
  · rintro ⟨v, hv, hmem, hname⟩
    exact ⟨v, hv, argument_of_mem_unitsOf hg (mem_variants_iff.mp hv).1 hmem,
      (name_top_eq_iff hv).mp hname⟩

/-- Two members of a union, one with the letters of its name. -/
def profiles : List Call :=
  [⟨{}, .types, "types", "userinfo id:int53 = UserInfo;\n\nbotInfo id:int53 = UserInfo;"⟩]

theorem union_class_named_profiles :
    let g := (Compilation.ofCalls profiles).registry
    ((g.get 8).isUnion = true ∧ (g.get 8).argument = none ∧ (g.get 8).scalar = none) ∧
    g.variants 8 = [7, 9] ∧ (g.codeType 8).text = "UserInfo" ∧
    ∃ v ∈ g.variants 8, g.typeUnit v ∈ g.unitsOf .object ∧
      (g.typeUnit v).top.name = (g.codeType 8).text := by
  intro g
  have hrun : ((g.get 8).isUnion = true ∧ (g.get 8).argument = none ∧ (g.get 8).scalar = none) ∧
      g.variants 8 = [7, 9] ∧ (g.codeType 8).text = "UserInfo" ∧ (g.get 9).argument = none ∧
      sameLetters (pascal (g.get 9).name) (pascal (g.get 8).name) = false := by
    decide +kernel
  obtain ⟨⟨hu, harg, hs⟩, hvariants, htext, hplain, hletters⟩ := hrun
  refine ⟨⟨hu, harg, hs⟩, hvariants, htext, ?_⟩
  refine (union_class_named profiles 8 hu harg hs).2.2.mp ⟨9, ?_, hplain, .inr hletters⟩
  rw [hvariants]
  exact List.mem_of_getElem? (i := 1) rfl

/-- Every union with a member has a class of exactly the name that references to it spell. -/
def Registry.UnionsHaveClasses (g : Registry) : Prop :=
  ∀ u, (g.get u).isUnion = true → (g.get u).argument = none → (g.get u).scalar = none →
    g.variants u ≠ [] → ∃ s ∈ g.unitsOf .object, s.top.name = pascal (g.get u).name

theorem Registry.not_unionsHaveClasses {g : Registry} {u : TypeId}
    (h : ((g.get u).isUnion = true ∧ (g.get u).argument = none ∧ (g.get u).scalar = none) ∧
      g.variants u ≠ [] ∧
      ((g.unitsOf .object).all fun s => s.top.name != pascal (g.get u).name) = true) :
    ¬ g.UnionsHaveClasses := by
  obtain ⟨⟨hu, harg, hs⟩, hne, hall⟩ := h
  intro hg
  obtain ⟨s, hmem, hname⟩ := hg u hu harg hs hne
  have hother := List.all_eq_true.mp hall s hmem
  rw [hname, bne_self_eq_false] at hother
  cases hother

/-- The only member of a union has its letters in another case; or it is `bytes`, which has no unit. -/
theorem unionsHaveClasses_fails :
    ¬ (Compilation.ofCalls [⟨{}, .types, "types", "userinfo = UserInfo;"⟩]).registry.UnionsHaveClasses ∧
    ¬ (Compilation.ofCalls [⟨{}, .types, "types", "bytes=Blob;"⟩]).registry.UnionsHaveClasses :=
  ⟨not_unionsHaveClasses (u := 8) (by decide +kernel),
    not_unionsHaveClasses (u := 8) (by decide +kernel)⟩

end TypeLang
