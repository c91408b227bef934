import Mathlib.Data.List.Nodup
import TypeLang.Proofs.Writing

/-! # When units share a file or a class

Types are told apart by their names, and so are functions, but the names of files and classes are made
from these by putting letters into upper case and dropping underscores, and this may make two names
one; and in a name that is no identifier there may be slashes and dots that name nothing. So the paths
are distinct exactly if the stems are (`nodup_components_iff`), and the classes exactly if their spellings
are (`nodup_qualifiedName_iff`). Files at distinct places can all be read once they are written
(`read_of_nodup`), and below the output directory distinct paths lead to distinct places
(`nodup_place`). -/

namespace TypeLang

open Naming Registry PathText

/-! ### Stems -/

/-- The components of the file with the given stem, below the directory of its kind. -/
def stemNames (stem : String) : List String := (names (stem ++ ".cs")).filter (· ≠ ".")

/-- Files with these stems have the same path in a directory. -/
def SameStem (s t : String) : Prop := isAbsolute s = isAbsolute t ∧ stemNames s = stemNames t

theorem stemNames_of_isStem {s : String} (h : isStem s = true) : stemNames s = [s ++ ".cs"] := by
  have hdot : s ++ ".cs" ≠ "." := by
    intro heq
    have hlast := congrArg (fun s => s.toList.getLast?) heq
    simp at hlast
  rw [stemNames, UnitKind.names_stem h]
  simp [hdot]

/-- Ordinary stems are the same only if they are spelled alike. -/
theorem sameStem_iff {s t : String} (hs : isStem s = true) (ht : isStem t = true) :
    SameStem s t ↔ s = t := by
  rw [SameStem, UnitKind.isAbsolute_of_isStem hs, UnitKind.isAbsolute_of_isStem ht,
    stemNames_of_isStem hs, stemNames_of_isStem ht]
  simp

theorem UnitKind.folder_ne_slash (kind : UnitKind) : kind.folder ≠ "/" := by cases kind <;> decide

namespace SourceUnit
variable {u v : SourceUnit}

theorem components_path (u : SourceUnit) : components (u.path {}) =
    (if isAbsolute u.fileStem then "/" else u.kind.folder) :: stemNames u.fileStem := by
  rw [components, isAbsolute_path, path_default]
  split
  · rfl
  · rw [UnitKind.names_pathOf]
    rfl

/-- Units of one kind share a path exactly if they share a stem. -/
theorem components_path_eq_iff (hkind : u.kind = v.kind) :
    components (u.path {}) = components (v.path {}) ↔ SameStem u.fileStem v.fileStem := by
  rw [components_path, components_path, List.cons.injEq, hkind, SameStem]
  refine and_congr_left fun _ => ?_
  cases isAbsolute u.fileStem <;> cases isAbsolute v.fileStem <;>
    simp [UnitKind.folder_ne_slash, Ne.symm (UnitKind.folder_ne_slash _)]

example : components "Objects/./X.cs" = components "Objects//X.cs" := by decide

theorem components_path_ne (hkind : u.kind ≠ v.kind) (h : isAbsolute v.fileStem = false) :
    components (u.path {}) ≠ components (v.path {}) := by
  intro heq
  rw [components_path, components_path, h, if_neg Bool.false_ne_true, List.cons.injEq] at heq
  obtain ⟨hhead, -⟩ := heq
  split at hhead
  · exact UnitKind.folder_ne_slash _ hhead.symm
  · revert hhead
    cases hu : u.kind <;> cases hv : v.kind <;> simp_all [UnitKind.folder]

end SourceUnit

/-! ### Units -/

namespace Registry
variable {g : Registry}

/-- No two types and no two functions have the same name but for the case of its first letter, and for
slashes and dots that name nothing. The name of a function has none. -/
structure DistinctStems (g : Registry) : Prop where
  types : ∀ i < g.size, ∀ j < g.size, g.hasUnit i = true → g.hasUnit j = true →
    SameStem (capitalize (g.get i).name) (capitalize (g.get j).name) → i = j
  functions : ∀ f ∈ g.functions, ∀ f' ∈ g.functions, capitalize f.name = capitalize f'.name → f = f'

/-- No two types and no two functions are spelled alike, nor a type and a function. -/
structure DistinctClasses (g : Registry) : Prop where
  types : ∀ i < g.size, ∀ j < g.size, g.hasUnit i = true → g.hasUnit j = true →
    (g.codeType i).text = (g.codeType j).text → i = j
  functions : ∀ f ∈ g.functions, ∀ f' ∈ g.functions, pascal f.name = pascal f'.name → f = f'
  apart : ∀ i < g.size, g.hasUnit i = true → ∀ f ∈ g.functions, (g.codeType i).text ≠ pascal f.name

/-- What all units have distinct is distinct among the types, among the functions and between them. -/
theorem nodup_map_units_iff {β : Type} (hg : g.Reachable) (k : SourceUnit → β) :
    (g.units.map k).Nodup ↔
      (∀ i < g.size, ∀ j < g.size, g.hasUnit i = true → g.hasUnit j = true →
        k (g.typeUnit i) = k (g.typeUnit j) → i = j) ∧
      (∀ f ∈ g.functions, ∀ f' ∈ g.functions, k (g.functionUnit f) = k (g.functionUnit f') → f = f') ∧
      ∀ i < g.size, g.hasUnit i = true → ∀ f ∈ g.functions,
        k (g.typeUnit i) ≠ k (g.functionUnit f) := by
  have htypes : ((List.range g.size).filter g.hasUnit).Nodup := List.nodup_range.filter _
  have hfunctions : g.functions.toList.Nodup := List.Nodup.of_map _ hg.distinctFunctions
  rw [units, List.map_append, List.map_map, List.map_map, List.nodup_append,
    List.nodup_map_iff_inj_on htypes, List.nodup_map_iff_inj_on hfunctions]
  simp only [List.mem_filter, List.mem_range, List.mem_map, Array.mem_toList_iff, Function.comp_apply]
  constructor
  · rintro ⟨h₁, h₂, h₃⟩
    refine ⟨fun i hi j hj hui huj h => h₁ i ⟨hi, hui⟩ j ⟨hj, huj⟩ h, h₂, fun i hi hui f hf => ?_⟩
    exact h₃ _ ⟨i, ⟨hi, hui⟩, rfl⟩ _ ⟨f, hf, rfl⟩
  · rintro ⟨h₁, h₂, h₃⟩
    refine ⟨fun i hi j hj h => h₁ i hi.1 j hj.1 hi.2 hj.2 h, h₂, ?_⟩
    rintro _ ⟨i, hi, rfl⟩ _ ⟨f, hf, rfl⟩
    exact h₃ i hi.1 hi.2 f hf

theorem nodup_qualifiedName_iff (hg : g.Reachable) :
    (g.units.map (·.qualifiedName)).Nodup ↔ g.DistinctClasses := by
  rw [nodup_map_units_iff hg]
  constructor
  · rintro ⟨h₁, h₂, h₃⟩
    refine ⟨fun i hi j hj hui huj h => h₁ i hi j hj hui huj ?_, h₂, fun i hi hui f hf => ?_⟩
    · rw [← text_codeType hui, ← text_codeType huj, h]
    · rw [text_codeType hui]
      exact h₃ i hi hui f hf
  · intro h
    refine ⟨fun i hi j hj hui huj heq => h.types i hi j hj hui huj ?_, h.functions, fun i hi hui f hf => ?_⟩
    · rw [text_codeType hui, text_codeType huj, heq]
    · rw [← text_codeType hui]
      exact h.apart i hi hui f hf

theorem components_typeUnit_eq_iff {i j : TypeId} :
    components ((g.typeUnit i).path {}) = components ((g.typeUnit j).path {}) ↔
      SameStem (capitalize (g.get i).name) (capitalize (g.get j).name) := by
  have hstem : ∀ id, (g.typeUnit id).fileStem = capitalize (g.get id).name := fun _ => rfl
  rw [SourceUnit.components_path_eq_iff (by rfl), hstem, hstem]

theorem components_functionUnit_eq_iff {f f' : FunctionRecord} :
    components ((g.functionUnit f).path {}) = components ((g.functionUnit f').path {}) ↔
      SameStem (capitalize f.name) (capitalize f'.name) := by
  have hstem : ∀ f, (g.functionUnit f).fileStem = capitalize f.name := fun _ => rfl
  rw [SourceUnit.components_path_eq_iff (by rfl), hstem, hstem]

theorem components_typeUnit_ne {i : TypeId} {f : FunctionRecord}
    (hf : isStem (capitalize f.name) = true) :
    components ((g.typeUnit i).path {}) ≠ components ((g.functionUnit f).path {}) :=
  SourceUnit.components_path_ne (fun h : UnitKind.object = .function => by cases h)
    (UnitKind.isAbsolute_of_isStem hf)

end Registry

namespace Compile
variable {is : List Item} {g : Registry} {files : List OutputFile}

/-- What the paths of the files have distinct, those of the units have. -/
theorem Compiled.map_path {β : Type} (hg : Compiled is g {} files) (k : String → β) :
    (files.map fun f => k f.path) = g.units.map fun u => k (u.path {}) := by
  rw [hg.files, List.map_map]
  rfl

/-- A type and a function never share a path, so the paths are distinct if the stems are. -/
theorem nodup_components_iff (hg : Compiled is g {} files) :
    (files.map fun f => components f.path).Nodup ↔ g.DistinctStems := by
  have hstem : ∀ f ∈ g.functions, isStem (capitalize f.name) = true :=
    fun f hf => isStem_of_isName (isName_capitalize (isName_function hg hf))
  rw [hg.map_path components, nodup_map_units_iff hg.built.reachable]
  simp only [components_typeUnit_eq_iff, components_functionUnit_eq_iff]
  constructor
  · rintro ⟨h₁, h₂, -⟩
    exact ⟨h₁, fun f hf f' hf' heq => h₂ f hf f' hf' ((sameStem_iff (hstem f hf) (hstem f' hf')).mpr heq)⟩
  · rintro ⟨h₁, h₂⟩
    exact ⟨h₁, fun f hf f' hf' heq => h₂ f hf f' hf' ((sameStem_iff (hstem f hf) (hstem f' hf')).mp heq),
      fun i _ _ f hf => components_typeUnit_ne (hstem f hf)⟩

end Compile

/-! ### Places on a disk -/

namespace FileTree
variable {t t' : FileTree} {out : String} {files : List OutputFile} {u v : SourceUnit}

/-- A single dot leads nowhere else. -/
theorem follow_filter (loc : Location) (names : List String) :
    follow loc (names.filter (· ≠ ".")) = follow loc names := by
  fun_induction follow loc names with
  | case1 loc => rfl
  | case2 loc names ih => rwa [List.filter_cons_of_neg (by decide)]
  | case3 loc names h ih => rw [List.filter_cons_of_pos (by decide), follow, if_neg h, if_pos rfl, ih]
  | case4 loc name names h h' ih =>
    rw [List.filter_cons_of_pos (by simpa), follow, if_neg h, if_neg h', ih]

theorem follow_of_no_up {names : List String} (hdot : "." ∉ names) (hup : ".." ∉ names) (loc : Location) :
    follow loc names = names.reverse ++ loc := by
  induction names generalizing loc with
  | nil => rfl
  | cons name names ih =>
    rw [List.mem_cons, not_or] at hdot hup
    rw [follow, if_neg (Ne.symm hdot.1), if_neg (Ne.symm hup.1), ih hdot.2 hup.2, List.reverse_cons,
      List.append_assoc]
    rfl

/-- Where the file of a unit stands. -/
theorem place_path (u : SourceUnit) (t : FileTree) (out : String) : t.place (join out (u.path {})) =
    follow (if isAbsolute u.fileStem then [] else u.kind.folder :: t.place out) (stemNames u.fileStem) := by
  have habs := SourceUnit.isAbsolute_path u
  rw [stemNames, follow_filter]
  split
  · next h =>
    rw [h] at habs
    rw [join, if_pos habs, place, start, if_pos habs, SourceUnit.path_default, if_pos h]
  · next h =>
    have hfolder : u.kind.folder ≠ "." ∧ u.kind.folder ≠ ".." := by cases u.kind <;> decide
    rw [Bool.eq_false_iff.mpr h] at habs
    rw [place_join habs, SourceUnit.path_default, if_neg h, UnitKind.names_pathOf, follow,
      if_neg hfolder.1, if_neg hfolder.2]

theorem place_eq_of_components (h : components (u.path {}) = components (v.path {})) (t : FileTree)
    (out : String) : t.place (join out (u.path {})) = t.place (join out (v.path {})) := by
  rw [SourceUnit.components_path, SourceUnit.components_path, List.cons.injEq] at h
  obtain ⟨hhead, hnames⟩ := h
  rw [place_path, place_path, hnames]
  split_ifs at hhead ⊢
  · rfl
  · exact absurd hhead.symm (UnitKind.folder_ne_slash _)
  · exact absurd hhead (UnitKind.folder_ne_slash _)
  · rw [hhead]

/-- The path leads on from the output directory, and never upwards. -/
def Below (path : String) : Prop := isAbsolute path = false ∧ ".." ∉ names path

theorem place_of_below (hu : Below (u.path {})) (t : FileTree) (out : String) :
    t.place (join out (u.path {})) = (components (u.path {})).reverse ++ t.place out := by
  obtain ⟨habs, hup⟩ := hu
  rw [SourceUnit.isAbsolute_path] at habs
  rw [SourceUnit.path_default, habs, if_neg Bool.false_ne_true, UnitKind.names_pathOf, List.mem_cons,
    not_or] at hup
  have hnot : ".." ∉ stemNames u.fileStem := fun hmem => hup.2 (List.mem_of_mem_filter hmem)
  rw [place_path, SourceUnit.components_path, habs, if_neg Bool.false_ne_true, if_neg Bool.false_ne_true,
    follow_of_no_up (by simp [stemNames]) hnot, List.reverse_cons, List.append_assoc]
  rfl

theorem nodup_components_of_place {is : List Item} {g : Registry} (hg : Compile.Compiled is g {} files)
    (h : (files.map fun f => t.place (join out f.path)).Nodup) :
    (files.map fun f => components f.path).Nodup := by
  rw [hg.map_path fun path => t.place (join out path)] at h
  rw [hg.map_path components]
  refine List.pairwise_map.mpr ((List.pairwise_map.mp h).imp fun hne heq => hne ?_)
  exact place_eq_of_components heq t out

/-- Below the output directory, different paths lead to different places. -/
theorem nodup_place {is : List Item} {g : Registry} (hg : Compile.Compiled is g {} files)
    (hbelow : ∀ f ∈ files, Below f.path) (h : (files.map fun f => components f.path).Nodup)
    (t : FileTree) (out : String) : (files.map fun f => t.place (join out f.path)).Nodup := by
  have hplace : ∀ f ∈ files,
      t.place (join out f.path) = (components f.path).reverse ++ t.place out := by
    intro f hf
    obtain ⟨u, -, hpath⟩ := Compile.exists_unit hg hf
    have hf := hbelow f hf
    rw [hpath] at hf ⊢
    exact place_of_below hf t out
  rw [List.map_congr_left hplace]
  refine List.pairwise_map.mpr ((List.pairwise_map.mp h).imp fun hne heq => hne ?_)
  exact List.reverse_injective (List.append_cancel_right heq)

/-- Files at distinct places can all be read after they were written. -/
theorem read_of_nodup (hnodup : (files.map fun f => t.place (join out f.path)).Nodup)
    (h : t.writeFiles out files = (.ok (), t')) :
    ∀ f ∈ files, t'.read (join out f.path) = .ok f.contents.toUTF8 := by
  intro f hf
  obtain ⟨before, after, rfl⟩ := List.append_of_mem hf
  refine read_writeFiles h fun f' hf' heq => ?_
  rw [List.map_append, List.map_cons, List.nodup_append, List.nodup_cons] at hnodup
  exact hnodup.2.1.1 (List.mem_map.mpr ⟨f', hf', heq⟩)

end FileTree

open Compile FileTree

/-- The paths of a compilation are distinct exactly if no two types and no two functions have the same
name but for the case of its first letter and for slashes and dots that name nothing, and its classes
exactly if no two units are spelled alike. Once the files are written, units with places of their own have
distinct paths, and then every file can be read; and if no path leads out of the output directory, distinct
paths are also places of their own. -/
theorem outputs_distinct_iff {o : Options} {types functions : String} {g : Registry}
    {files : List OutputFile} {log : Array Notice} (ho : o.code = {})
    (h : compileSchemas o types functions = (.ok (g, files), log)) :
    ((files.map fun f => components f.path).Nodup ↔ g.DistinctStems) ∧
    ((g.units.map (·.qualifiedName)).Nodup ↔ g.DistinctClasses) ∧
    ∀ (out : String) (t t' : FileTree), t.writeFiles out files = (.ok (), t') →
      let places := files.map fun f => t'.place (join out f.path)
      (places.Nodup → g.DistinctStems ∧
        ∀ f ∈ files, t'.read (join out f.path) = .ok f.contents.toUTF8) ∧
      ((∀ f ∈ files, Below f.path) → g.DistinctStems → places.Nodup) := by
  have hg : Compiled _ g {} files := ho ▸ compiled_of_ok h
  have hpaths := nodup_components_iff hg
  refine ⟨hpaths, nodup_qualifiedName_iff hg.built.reachable, fun out t t' hwritten => ?_⟩
  have hplace := fun path => (keeps_writeFiles hwritten).place path
  refine ⟨fun hnodup => ⟨hpaths.mp (nodup_components_of_place hg hnodup), ?_⟩, fun hbelow hdistinct => ?_⟩
  · simp only [hplace] at hnodup
    exact read_of_nodup hnodup hwritten
  · exact nodup_place hg hbelow (hpaths.mpr hdistinct) t' out

/-- Two types, one with the name of a function but for its first letter. -/
theorem outputs_distinct_iff_users :
    ∃ g files log t', compileSchemas {} "user = A;\n\nbot = A;" "User = A;" = (.ok (g, files), log) ∧
      files.map (·.path) = ["Objects/User.cs", "Objects/Bot.cs", "Functions/User.cs"] ∧
      ({} : FileTree).writeFiles "out" files = (.ok (), t') ∧ g.DistinctStems ∧
      ∀ f ∈ files, t'.read (join "out" f.path) = .ok f.contents.toUTF8 := by
  have hrun : yields {} "user = A;\n\nbot = A;" "User = A;" (fun _ files =>
      decide (files.map (·.path) = ["Objects/User.cs", "Objects/Bot.cs", "Functions/User.cs"]) &&
        (({} : FileTree).writeFiles "out" files).1.isOk) = true := by
    decide +kernel
  obtain ⟨g, files, log, hrun, htest⟩ := exists_of_yields hrun
  rw [Bool.and_eq_true, decide_eq_true_eq] at htest
  obtain ⟨hpaths, hok⟩ := htest
  have hbelow : ∀ f ∈ files, Below f.path := by
    intro f hf
    have hmem : f.path ∈ files.map (·.path) := List.mem_map_of_mem hf
    rw [hpaths] at hmem
    simp only [List.mem_cons, List.not_mem_nil, or_false] at hmem
    rcases hmem with h | h | h <;> rw [h] <;> exact ⟨by decide, by decide⟩
  rcases hwritten : ({} : FileTree).writeFiles "out" files with ⟨result, t'⟩
  rw [hwritten] at hok
  cases result with
  | error e => cases hok
  | ok u =>
    obtain ⟨hiff, -, hdisk⟩ := outputs_distinct_iff rfl hrun
    have hcomponents : (files.map fun f => components f.path) = (files.map (·.path)).map components := by
      rw [List.map_map]
      rfl
    have hdistinct : g.DistinctStems := hiff.mp (by rw [hcomponents, hpaths]; decide)
    obtain ⟨hread, hplaces⟩ := hdisk "out" {} t' hwritten
    exact ⟨g, files, log, t', hrun, hpaths, hwritten, hdistinct, (hread (hplaces hbelow hdistinct)).2⟩

/-- The number of files in a tree. -/
def FileTree.fileCount (t : FileTree) : Nat := t.entries.countP (·.2 matches .file _)

/-- Two types that differ in the case of the first letter share a path, and writing the two files to
an empty tree leaves one; two types that differ in an underscore share a class. -/
theorem outputs_collide :
    (¬ ∀ (o : Options) (types functions : String) (g : Registry) (files : List OutputFile)
      (log : Array Notice), o.strict = true → o.code = {} →
      compileSchemas o types functions = (.ok (g, files), log) →
      (files.map fun f => components f.path).Nodup) ∧
    (¬ ∀ (o : Options) (types functions : String) (g : Registry) (files : List OutputFile)
      (log : Array Notice), o.strict = true → o.code = {} →
      compileSchemas o types functions = (.ok (g, files), log) →
      ∀ out t, ({} : FileTree).writeFiles out files = (.ok (), t) → t.fileCount = g.units.length) ∧
    (¬ ∀ (o : Options) (types functions : String) (g : Registry) (files : List OutputFile)
      (log : Array Notice), o.strict = true → o.code = {} →
      compileSchemas o types functions = (.ok (g, files), log) →
      (g.units.map (·.qualifiedName)).Nodup) := by
  refine ⟨fun hall => ?_, fun hall => ?_, fun hall => ?_⟩
  · have hrun : yields {} "user = A;\n\nUser = B;" "" (fun _ files =>
        files.map (fun f => components f.path) = [["Objects", "User.cs"], ["Objects", "User.cs"]]) =
          true := by decide +kernel
    obtain ⟨g, files, log, hrun, hpaths⟩ := exists_of_yields hrun
    have hnodup := hall {} _ _ g files log rfl rfl hrun
    rw [of_decide_eq_true hpaths] at hnodup
    revert hnodup
    decide
  · have hrun : yields {} "user = A;\n\nUser = B;" "" (fun g files =>
        match ({} : FileTree).writeFiles "out" files with
        | (.ok (), t) => decide (t.fileCount = 1 ∧ g.units.length = 2)
        | _ => false) = true := by decide +kernel
    obtain ⟨g, files, log, hrun, htest⟩ := exists_of_yields hrun
    split at htest
    · next t hwritten =>
      obtain ⟨hone, htwo⟩ := of_decide_eq_true htest
      have hcount := hall {} _ _ g files log rfl rfl hrun "out" t hwritten
      omega
    · cases htest
  · have hrun : yields {} "foo_bar = A;\n\nfooBar = A;" "" (fun g _ =>
        g.units.map (·.qualifiedName) = ["A.FooBar", "A.FooBar"]) = true := by decide +kernel
    obtain ⟨g, files, log, hrun, hnames⟩ := exists_of_yields hrun
    have hnodup := hall {} _ _ g files log rfl rfl hrun
    rw [of_decide_eq_true hnames] at hnodup
    revert hnodup
    decide

end TypeLang
