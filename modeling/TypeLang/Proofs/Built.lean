import Mathlib.Logic.Relation
import TypeLang.Proofs.Representation
import TypeLang.Proofs.Swap

/-! # Registries that are built from schemas

`Leads g g'`: items, admitted or refused, lead from `g` to `g'`. On catalogues such a run is a row of
clauses that fit (`Leads.evolves`). A clause that fits leaves the entry of every declared type alone
(`entry_apply_of_concrete`), and this makes declarations final: what was declared once reads the same
ever after. It also keeps unions apart from the declared types (`Settled`). All that is added to a
compilation, in any number of calls, comes to the registry as items (`built_ofCalls`). -/

namespace TypeLang

open Registry

namespace Catalogue
variable {s s' : Catalogue} {k : Clause} {x : TypeExpr}

/-- A clause that fits leads from one catalogue to the other. -/
def Step (s s' : Catalogue) : Prop := ∃ k : Clause, k.Fits s ∧ s' = k.apply s

/-- Clauses that fit lead from one catalogue to the other. -/
abbrev Evolves : Catalogue → Catalogue → Prop := Relation.ReflTransGen Step

/-- A type with a declaration of its own is neither declared again nor made a union. -/
theorem entry_apply_of_concrete (hfits : k.Fits s) (hc : (s.entry x).isConcrete = true) :
    (k.apply s).entry x = s.entry x := by
  have hd : (s.entry x).isDeclared = true := by
    rw [Entry.isConcrete, Bool.and_eq_true] at hc
    exact hc.1
  cases k with
  | skip => rfl
  | type a d =>
    have hn : x ≠ a.name := by
      rintro rfl
      rw [hfits.1.1] at hd
      cases hd
    have hr : x ≠ a.result := by
      rintro rfl
      rw [hfits.2 hn] at hc
      cases hc
    exact Clause.entry_type hn hr
  | function n a d =>
    have hunion : ((s.entry x).isUnion || !(s.entry x).isDeclared && !a.result.isGeneric) =
        (s.entry x).isUnion := by
      rw [hd]
      simp
    simp only [Clause.apply, modify, hold, push]
    split
    · rw [hunion]
    · rfl
  | union e d =>
    have hne : x ≠ e := by
      rintro rfl
      have : (s.entry x).isConcrete = false := hfits
      rw [hc] at this
      cases this
    simp only [Clause.apply, modify, hold, if_neg hne]

theorem Evolves.keeps {P : Catalogue → Prop} (hP : ∀ s (k : Clause), k.Fits s → P s → P (k.apply s))
    (h : Evolves s s') (hs : P s) : P s' := by
  induction h with
  | refl => exact hs
  | tail _ hstep ih =>
    obtain ⟨k, hfits, rfl⟩ := hstep
    exact hP _ k hfits ih

theorem Evolves.entry_of_concrete (h : Evolves s s') (hc : (s.entry x).isConcrete = true) :
    s'.entry x = s.entry x := by
  refine h.keeps (P := fun t => t.entry x = s.entry x) (fun t k hfits ht => ?_) rfl
  rw [entry_apply_of_concrete hfits (by rw [ht]; exact hc), ht]

theorem Evolves.holds (h : Evolves s s') (hx : s.Holds x) : s'.Holds x := by
  refine h.keeps (P := fun t => t.Holds x) (fun t k _ ht => ?_) hx
  cases k with
  | skip => exact ht
  | type a d => exact .inl ht
  | function n a d => exact .inl ht
  | union e d => exact .inl ht

theorem Evolves.functions {f : FunctionEntry} (h : Evolves s s') (hf : f ∈ s.functions) :
    f ∈ s'.functions := by
  refine h.keeps (P := fun t => f ∈ t.functions) (fun t k _ ht => ?_) hf
  cases k with
  | skip => exact ht
  | type a d => exact ht
  | function n a d => exact Multiset.mem_cons_of_mem ht
  | union e d => exact ht

/-- The scalars are declared, and a type that belongs to a union is declared and is none itself. -/
structure Settled (s : Catalogue) : Prop where
  scalarsDeclared : s.ScalarsDeclared
  scalar : ∀ c : Scalar, (s.entry (.name c.codeName)).isDeclared = true
  base : ∀ x, (s.entry x).base.isSome = true →
    (s.entry x).isConcrete = true ∧ (s.entry x).isUnion = false

theorem Settled.apply (hs : s.Settled) (hfits : k.Fits s) : (k.apply s).Settled := by
  refine ⟨hs.scalarsDeclared.apply k, fun c => isDeclared_entry_apply k (hs.scalar c), fun x hx => ?_⟩
  cases hb : (s.entry x).base.isSome with
  | true =>
    have hkeep := entry_apply_of_concrete hfits (hs.base x hb).1
    rw [hkeep]
    exact hs.base x hb
  | false =>
    -- only the declaration of a type sets a base, and what it declares is no union
    cases k with
    | skip => rw [Clause.apply, hb] at hx; cases hx
    | type a d =>
      by_cases hn : x = a.name
      · subst hn
        refine ⟨Clause.isConcrete_type_self hs.scalarsDeclared hfits, ?_⟩
        simp only [Clause.apply, modify, hold, if_pos]
        exact hfits.1.2
      · simp only [Clause.apply, modify, hold, if_neg hn] at hx
        split at hx <;> rw [hb] at hx <;> cases hx
    | function n a d =>
      simp only [Clause.apply, modify, hold, push] at hx
      split at hx <;> rw [hb] at hx <;> cases hx
    | union e d =>
      simp only [Clause.apply, modify, hold] at hx
      split at hx <;> rw [hb] at hx <;> cases hx

theorem settled_initial : initial.catalogue.Settled where
  scalarsDeclared := scalarsDeclared_initial
  scalar c := by
    have hfind : ∀ c ∈ Scalar.all, initial.findExpr? (.name c.codeName) = some (scalarId c) := by
      decide +kernel
    exact isDeclared_entry_initial (hfind c (Scalar.mem_all c))
  base x hx := by
    cases he : initial.findExpr? x with
    | none => rw [show initial.catalogue.entry x = {} from entry_of_none he] at hx; cases hx
    | some id =>
      rw [show initial.catalogue.entry x = _ from entry_of_findExpr? he, entryOf,
        (get_initial id).2] at hx
      cases hx

theorem Evolves.settled (h : Evolves s s') (hs : s.Settled) : s'.Settled :=
  h.keeps (fun _ _ hfits ht => ht.apply hfits) hs

end Catalogue

/-! ### Registries -/

namespace Registry
open Admission
variable {g g' : Registry}

/-- An item, admitted or refused, leads from one registry to the other. -/
def Takes (g g' : Registry) : Prop := ∃ kind i, g' = (addItem kind i).after g

/-- Items, admitted or refused, lead from one registry to the other. -/
abbrev Leads : Registry → Registry → Prop := Relation.ReflTransGen Takes

/-- Items alone made the registry what it is. -/
def Built (g : Registry) : Prop := Leads initial g

theorem Takes.evolves (hg : g.Closed) (h : Takes g g') :
    g'.Closed ∧ Catalogue.Evolves g.catalogue g'.catalogue := by
  obtain ⟨kind, i, rfl⟩ := h
  rcases addItem_cases hg kind i with ⟨c, hr, -⟩ | ⟨k, o, g', -, hfits, hr, hg', hcat⟩
  · rw [after_of_error hr]
    exact ⟨hg, .refl⟩
  · rw [after_of_ok hr]
    exact ⟨hg', .single ⟨k, hfits, hcat⟩⟩

theorem Leads.evolves (hg : g.Closed) (h : Leads g g') :
    g'.Closed ∧ Catalogue.Evolves g.catalogue g'.catalogue := by
  induction h with
  | refl => exact ⟨hg, .refl⟩
  | tail _ hstep ih =>
    obtain ⟨hclosed, hevolves⟩ := hstep.evolves ih.1
    exact ⟨hclosed, ih.2.trans hevolves⟩

theorem after_bind_of_idle {α β : Type} {a : Admission α} {f : α → Admission β}
    (hf : ∀ x g, (f x).after g = g) (g : Registry) : (a >>= f).after g = a.after g := by
  cases h : a.run g with
  | ok x g' =>
    rw [Admission.after, run_bind_ok h, after_of_ok h]
    exact hf x g'
  | error e g' => rw [after_of_error h, after_of_error (run_bind_error h)]

theorem after_addItem_type (decl : Declaration) (g : Registry) :
    (addItem .types (.declaration decl)).after g = (addType decl).after g := by
  refine after_bind_of_idle (fun id g => ?_) g
  cases id <;> rfl

theorem after_addItem_function (decl : Declaration) (g : Registry) :
    (addItem .functions (.declaration decl)).after g = (Admission.addFunction decl).after g :=
  after_bind_of_idle (fun _ _ => rfl) g

theorem after_addItem_union (kind : Kind) (name : String) (d : Option String) (line : Nat)
    (g : Registry) : (addItem kind (.union name d line)).after g = (documentUnion name d).after g :=
  after_bind_of_idle (fun _ _ => rfl) g

/-- Taking an item in is one of the operations on registries. -/
theorem Takes.reachable (h : Takes g g') (hg : g.Reachable) : g'.Reachable := by
  obtain ⟨kind, i, rfl⟩ := h
  cases i with
  | declaration decl =>
    cases kind with
    | types =>
      rw [after_addItem_type]
      exact hg.perform (.addType decl)
    | functions =>
      rw [after_addItem_function]
      exact hg.perform (.addFunction decl)
  | union name d line =>
    rw [after_addItem_union]
    exact hg.perform (.documentUnion name d)

theorem Leads.reachable (h : Leads g g') (hg : g.Reachable) : g'.Reachable := by
  induction h with
  | refl => exact hg
  | tail _ hstep ih => exact hstep.reachable ih

theorem Built.reachable (hg : g.Built) : g.Reachable := Leads.reachable hg .initial

theorem Built.closed (hg : g.Built) : g.Closed := (Leads.evolves closed_initial hg).1

theorem Built.settled (hg : g.Built) : g.catalogue.Settled :=
  (Leads.evolves closed_initial hg).2.settled Catalogue.settled_initial

end Registry

/-! ### Compilations -/

namespace Compile
variable {α β : Type} {strict : Bool} {file : String} {kind : Admission.Kind} {c c' : Compilation}

/-- The compilation that a step leaves behind, failed or not. -/
def after (a : Compile α) (c : Compilation) : Compilation :=
  match a.run c with
  | .ok _ c' => c'
  | .error _ c' => c'

theorem after_of_ok {a : Compile α} {x : α} (h : a.run c = .ok x c') : a.after c = c' := by
  rw [after, h]

theorem after_of_error {a : Compile α} {e : CompileError} (h : a.run c = .error e c') :
    a.after c = c' := by
  rw [after, h]

/-- All that the step does to the registry is to take items in. -/
def Leading (a : Compile α) : Prop := ∀ c, Leads c.registry (a.after c).registry

namespace Leading

theorem pure (x : α) : Leading (Pure.pure x : Compile α) := fun _ => .refl

theorem throw (e : CompileError) : Leading (MonadExcept.throw e : Compile α) := fun _ => .refl

theorem tell (n : Notice) : Leading (tell n) := fun _ => .refl

theorem tellAll (ns : List Notice) : Leading (tellAll ns) := fun _ => .refl

theorem bind {a : Compile α} {f : α → Compile β} (ha : Leading a) (hf : ∀ x, Leading (f x)) :
    Leading (a >>= f) := by
  intro c
  have hfirst := ha c
  cases h : a.run c with
  | ok x c' =>
    have hrest := hf x c'
    rw [after_of_ok h] at hfirst
    rw [after, run_bind_ok h]
    exact hfirst.trans hrest
  | error e c' =>
    rw [after_of_error h] at hfirst
    rw [after_of_error (run_bind_error h)]
    exact hfirst

theorem attempt (kind : Admission.Kind) (i : Item) : Leading (attempt (Admission.addItem kind i)) := by
  intro c
  refine .single ⟨kind, i, ?_⟩
  cases h : (Admission.addItem kind i).run c.registry with
  | ok o g => rw [after_of_ok (run_attempt_ok h), Admission.after_of_ok h]
  | error e g => rw [after_of_ok (run_attempt_error h), Admission.after_of_error h]

theorem addItem (strict : Bool) (file : String) (kind : Admission.Kind) (t : Tally) (i : Item) :
    Leading (addItem strict file kind t i) := by
  refine (attempt kind i).bind fun r => ?_
  cases r with
  | ok o =>
    cases o with
    | declared => exact .pure _
    | passedOver name => exact (tell _).bind fun _ => .pure _
    | documented => exact .pure _
  | error cause =>
    cases strict with
    | true => exact .throw _
    | false => exact (tell _).bind fun _ => .pure _

theorem addItems (strict : Bool) (file : String) (kind : Admission.Kind) (t : Tally) (is : List Item) :
    Leading (is.foldlM (Compile.addItem strict file kind) t) := by
  induction is generalizing t with
  | nil => exact .pure t
  | cons i is ih => exact (addItem strict file kind t i).bind ih

/-- Items and the report of how many there were. -/
theorem reported (strict : Bool) (file : String) (kind : Admission.Kind) (t : Tally) (is : List Item)
    (n : Nat) :
    Leading (do
      let t ← is.foldlM (Compile.addItem strict file kind) t
      Compile.tell (.added file n t.declared t.skipped)
      return t) :=
  (addItems strict file kind t is).bind fun t => (tell _).bind fun _ => .pure t

theorem add (o : Options) (kind : Admission.Kind) (file text : String) :
    Leading (add o kind file text) := by
  refine (tellAll _).bind fun _ => ?_
  cases Schema.items o.strict file text with
  | error e => exact (throw e).bind fun is => reported o.strict file kind {} is _
  | ok is => exact (Leading.pure is).bind fun is => reported o.strict file kind {} is _

end Leading

end Compile

/-- One call that adds a schema to a compilation. -/
structure Call where
  options : Options
  kind : Admission.Kind
  file : String
  text : String

/-- The compilation after a call, failed or not. -/
def Call.after (call : Call) (c : Compilation) : Compilation :=
  (Compile.add call.options call.kind call.file call.text).after c

/-- The compilation that calls lead to. -/
def Compilation.ofCalls (calls : List Call) : Compilation :=
  calls.foldl (fun c call => call.after c) {}

theorem Call.leads (call : Call) (c : Compilation) : Leads c.registry (call.after c).registry :=
  Compile.Leading.add call.options call.kind call.file call.text c

theorem leads_foldl_calls (calls : List Call) (c : Compilation) :
    Leads c.registry (calls.foldl (fun c call => call.after c) c).registry := by
  induction calls generalizing c with
  | nil => exact .refl
  | cons call calls ih => exact (call.leads c).trans (ih _)

theorem built_ofCalls (calls : List Call) : (Compilation.ofCalls calls).registry.Built :=
  leads_foldl_calls calls {}

end TypeLang
