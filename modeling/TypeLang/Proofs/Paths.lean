import TypeLang.Proofs.Traces

/-! # Paths of the generated files

The path of a unit is its stem in the directory of its kind, unless the stem starts with a slash
(`SourceUnit.path_default`). So a path is of the right form exactly if its stem is (`placed_iff`), and
where the stem comes from is known from `Traces`: the names of functions and of declared types are
identifiers, and only the leaf of a generic type may be something else. -/

namespace TypeLang

open Naming Registry

namespace PathText

theorem names_append_slash (dir file : String) :
    names (dir ++ "/" ++ file) = names dir ++ names file := by
  have hchars : (dir ++ "/" ++ file).toList = dir.toList ++ '/' :: file.toList := by simp
  have hsplit := List.splitOnP_append_cons (p := (· == '/')) dir.toList file.toList
    (beq_self_eq_true '/')
  rw [names, hchars, hsplit, List.filter_append, List.map_append, names, names]

theorem names_of_no_slash {s : String} (hne : s ≠ "") (h : '/' ∉ s.toList) : names s = [s] := by
  have hsplit : s.toList.splitOnP (· == '/') = [s.toList] :=
    List.splitOnP_eq_singleton fun c hc => by
      rw [beq_eq_false_iff_ne]
      rintro rfl
      exact h hc
  have hnil : s.toList ≠ [] := fun hs => hne (String.toList_eq_nil_iff.mp hs)
  rw [names, hsplit]
  simp [hnil]

theorem isAbsolute_append {s : String} (t : String) (h : s ≠ "") :
    isAbsolute (s ++ t) = isAbsolute s := by
  have hnil : s.toList ≠ [] := fun hs => h (String.toList_eq_nil_iff.mp hs)
  obtain ⟨c, cs, hs⟩ := List.exists_cons_of_ne_nil hnil
  rw [isAbsolute, isAbsolute, String.toList_append, hs, List.cons_append, List.head?_cons,
    List.head?_cons]

theorem exists_of_getLast? {s : String} (h : s.toList.getLast? = some '/') : ∃ t, s = t ++ "/" := by
  obtain ⟨cs, hcs⟩ := List.getLast?_eq_some_iff.mp h
  refine ⟨String.ofList cs, String.toList_inj.mp ?_⟩
  rw [hcs]
  simp

theorem names_join {file : String} (h : isAbsolute file = false) (dir : String) :
    names (join dir file) = names dir ++ names file := by
  have hnil : names "" = [] := by decide
  rw [join, h, if_neg Bool.false_ne_true]
  split
  next hdir =>
    rw [Bool.or_eq_true, String.isEmpty_iff, beq_iff_eq] at hdir
    rcases hdir with rfl | hlast
    · rw [String.empty_append, hnil, List.nil_append]
    · obtain ⟨t, rfl⟩ := exists_of_getLast? hlast
      have ht := names_append_slash t ""
      rw [String.append_empty, hnil, List.append_nil] at ht
      rw [names_append_slash, ht]
  next => exact names_append_slash dir file

theorem isAbsolute_join {file : String} (h : isAbsolute file = false) (dir : String) :
    isAbsolute (join dir file) = isAbsolute dir := by
  rw [join, h, if_neg Bool.false_ne_true]
  by_cases hne : dir = ""
  · subst hne
    rw [String.isEmpty_iff.mpr rfl, Bool.true_or, if_pos rfl, String.empty_append, h]
    rfl
  · split
    next => exact isAbsolute_append file hne
    next => rw [String.append_assoc]; exact isAbsolute_append _ hne

end PathText

open PathText

/-- The directory of the units of a kind. -/
def UnitKind.folder : UnitKind → String
  | object => "Objects"
  | function => "Functions"

/-- The path of the file with the given stem. -/
def UnitKind.pathOf (kind : UnitKind) (stem : String) : String := kind.folder ++ "/" ++ (stem ++ ".cs")

/-- The path is that of a file in one of the two directories, and the stem is good. -/
def Placed (good : String → Bool) (path : String) : Prop :=
  ∃ kind stem, good stem = true ∧ path = UnitKind.pathOf kind stem

namespace UnitKind
variable {kind kind' : UnitKind} {stem stem' : String}

theorem isAbsolute_pathOf (kind : UnitKind) (stem : String) : isAbsolute (kind.pathOf stem) = false := by
  rw [pathOf, String.append_assoc]
  cases kind with
  | object => rw [isAbsolute_append _ (by decide)]; decide
  | function => rw [isAbsolute_append _ (by decide)]; decide

theorem pathOf_inj (h : kind.pathOf stem = kind'.pathOf stem') : kind = kind' ∧ stem = stem' := by
  have hchars := congrArg String.toList h
  simp only [pathOf, String.toList_append] at hchars
  cases kind <;> cases kind' <;> simp [folder] at hchars
  · exact ⟨rfl, String.toList_inj.mp hchars⟩
  · exact ⟨rfl, String.toList_inj.mp hchars⟩

theorem not_mem_slash_of_isStem (h : isStem stem = true) : '/' ∉ stem.toList := by
  obtain ⟨c, cs, hs, hc, hcs⟩ := exists_cons_of_isStem h
  rw [hs]
  intro hmem
  rcases List.mem_cons.mp hmem with rfl | hmem
  · revert hc; decide
  · have := hcs _ hmem
    revert this
    decide

theorem names_pathOf (kind : UnitKind) (stem : String) :
    names (kind.pathOf stem) = kind.folder :: names (stem ++ ".cs") := by
  rw [pathOf, names_append_slash]
  cases kind <;> rw [names_of_no_slash (by decide) (by decide)] <;> rfl

/-- An ordinary stem is a component of its own. -/
theorem names_stem (h : isStem stem = true) : names (stem ++ ".cs") = [stem ++ ".cs"] := by
  refine names_of_no_slash (fun hnil => ?_) ?_
  · have hchars := congrArg String.toList hnil
    simp at hchars
  · rw [String.toList_append, List.mem_append, not_or]
    exact ⟨not_mem_slash_of_isStem h, by decide⟩

theorem isAbsolute_of_isStem (h : isStem stem = true) : isAbsolute stem = false := by
  obtain ⟨c, cs, hs, -, -⟩ := exists_cons_of_isStem h
  have hslash := not_mem_slash_of_isStem h
  rw [hs] at hslash
  rw [isAbsolute, hs, List.head?_cons, beq_eq_false_iff_ne]
  rintro ⟨rfl⟩
  exact hslash List.mem_cons_self

end UnitKind

open UnitKind

/-- The path does not start at the root, has two components, and none of them leads upwards. -/
def Confined (path : String) : Prop :=
  isAbsolute path = false ∧ (names path).length = 2 ∧ ".." ∉ names path

theorem confined_of_placed {good : String → Bool} {path : String}
    (hgood : ∀ s, good s = true → isStem s = true) (h : Placed good path) : Confined path := by
  obtain ⟨kind, stem, hstem, rfl⟩ := h
  refine ⟨isAbsolute_pathOf kind stem, ?_, ?_⟩ <;> rw [names_pathOf, names_stem (hgood stem hstem)]
  · rfl
  · intro hmem
    rcases List.mem_pair.mp hmem with h | h
    · revert h; cases kind <;> decide
    · -- the second component ends in the letter of its extension
      have hlast := congrArg (fun s => s.toList.getLast?) h
      simp at hlast

namespace SourceUnit
variable {u v : SourceUnit} {good : String → Bool}

theorem path_default (u : SourceUnit) :
    u.path {} = if isAbsolute u.fileStem then u.fileStem ++ ".cs" else u.kind.pathOf u.fileStem := by
  have hfile : u.fileStem ++ "." ++ "cs" = u.fileStem ++ ".cs" := by rw [String.append_assoc]; rfl
  have habs : isAbsolute (u.fileStem ++ ".cs") = isAbsolute u.fileStem := by
    by_cases hne : u.fileStem = ""
    · rw [hne]; decide
    · exact isAbsolute_append _ hne
  have hjoin : u.path {} = join u.kind.folder (u.fileStem ++ "." ++ "cs") := by
    cases hk : u.kind <;> simp only [path, hk] <;> rfl
  rw [hjoin, hfile, join, habs]
  split
  · rfl
  · cases u.kind <;> rfl

theorem isAbsolute_path (u : SourceUnit) : isAbsolute (u.path {}) = isAbsolute u.fileStem := by
  rw [path_default]
  split
  · next h =>
    have hne : u.fileStem ≠ "" := by
      intro hnil
      rw [hnil] at h
      revert h
      decide
    rw [isAbsolute_append _ hne]
  · next h => rw [isAbsolute_pathOf, Bool.eq_false_iff.mpr h]

/-- A path is of the right form exactly if its stem is good. -/
theorem placed_iff (hgood : ∀ s, good s = true → isStem s = true) :
    Placed good (u.path {}) ↔ good u.fileStem = true := by
  constructor
  · rintro ⟨kind, stem, hstem, hpath⟩
    -- no path of this form starts at the root, so neither does the stem
    have habs := isAbsolute_path u
    rw [hpath, isAbsolute_pathOf] at habs
    rw [path_default, ← habs, if_neg Bool.false_ne_true] at hpath
    rwa [(pathOf_inj hpath).2]
  · intro h
    refine ⟨u.kind, u.fileStem, h, ?_⟩
    rw [path_default, isAbsolute_of_isStem (hgood _ h), if_neg Bool.false_ne_true]

end SourceUnit

/-! ### The files of a compilation -/

namespace Compile
variable {is : List Item} {g : Registry} {files : List OutputFile}

theorem isName_function (hg : Compiled is g {} files) {f : FunctionRecord} (hf : f ∈ g.functions) :
    isName f.name = true :=
  (hg.traced.functions (g.functionEntry f)
    (Multiset.mem_coe.mpr (List.mem_map_of_mem (Array.mem_toList_iff.mpr hf)))).1

theorem exists_unit (hg : Compiled is g {} files) {f : OutputFile} (hf : f ∈ files) :
    ∃ u ∈ g.units, f.path = u.path {} := by
  rw [hg.files] at hf
  obtain ⟨u, hu, rfl⟩ := List.mem_map.mp hf
  exact ⟨u, hu, rfl⟩

theorem exists_file (hg : Compiled is g {} files) {u : SourceUnit} (hu : u ∈ g.units) :
    ∃ f ∈ files, f.path = u.path {} := by
  rw [hg.files]
  exact ⟨_, List.mem_map_of_mem hu, rfl⟩

theorem placed_isName_iff {u : SourceUnit} : Placed isName (u.path {}) ↔ isName u.fileStem = true :=
  SourceUnit.placed_iff fun _ => isStem_of_isName

/-- The files of functions and of declared types have identifiers for stems, and so have those of
other types, but for the leaves of generic types. -/
theorem file_cases (hg : Compiled is g {} files) {f : OutputFile} (hf : f ∈ files) :
    Placed isName f.path ∨ ∃ id < g.size, g.hasUnit id = true ∧ f.path = (g.typeUnit id).path {} ∧
      (g.get id).isDeclared = false ∧ g.Wrapped is id := by
  obtain ⟨u, hu, hpath⟩ := exists_unit hg hf
  rw [hpath]
  rcases mem_units_iff.mp hu with ⟨id, hid, hunit, rfl⟩ | ⟨fn, hfn, rfl⟩
  · rcases traced_of_hasUnit hg.built.closed hg.traced hid hunit with hn | ⟨hd, hwrapped⟩
    · exact .inl (placed_isName_iff.mpr (isName_capitalize hn))
    · exact .inr ⟨id, hid, hunit, rfl, hd, hwrapped⟩
  · exact .inl (placed_isName_iff.mpr (isName_capitalize (isName_function hg hfn)))

/-- Where no documentation of a union names a generic type, all stems are letters, digits and
underscores. -/
theorem placed_isStem (hg : Compiled is g {} files)
    (hlines : ∀ decl, .declaration decl ∈ is → decl.toSignature.Spelled)
    (hdocs : ∀ name d line, .union name d line ∈ is → '<' ∉ name.toList) {f : OutputFile}
    (hf : f ∈ files) : Placed isStem f.path := by
  rcases file_cases hg hf with ⟨kind, stem, hstem, hpath⟩ | ⟨id, hid, hunit, hpath, hd, hwrapped⟩
  · exact ⟨kind, stem, isStem_of_isName hstem, hpath⟩
  · rw [hpath]
    refine (SourceUnit.placed_iff fun _ hs => hs).mpr (isStem_capitalize ?_)
    exact isStem_of_wrapped hg.built.closed hg.traced hlines hdocs hid hunit hd hwrapped

end Compile

open Compile

/-- The path of a file is an identifier in one of the two directories, unless it is that of a type
that is not declared and is the leaf of a generic type that the texts write. So all paths are of this
form exactly if all these leaves are identifiers, up to the case of their first letter. And if no
documentation of a union names a generic type, every path stays below the output directory, and at
most starts with a digit where an identifier does not. -/
theorem paths_placed {o : Options} {types functions : String} {g : Registry} {files : List OutputFile}
    {log : Array Notice} (ho : o.code = {})
    (h : compileSchemas o types functions = (.ok (g, files), log)) :
    let is := Schema.contents types ++ Schema.contents functions
    (∀ f ∈ files, (Placed isName f.path ∧ Confined f.path) ∨
      ∃ id < g.size, f.path = (g.typeUnit id).path {} ∧ (g.get id).isDeclared = false ∧
        g.Wrapped is id) ∧
    ((∀ f ∈ files, Placed isName f.path ∧ Confined f.path) ↔
      ∀ id < g.size, g.hasUnit id = true → (g.get id).isDeclared = false → g.Wrapped is id →
        isName (capitalize (g.get id).name) = true) ∧
    ((∀ name d line, Item.union name d line ∈ is → '<' ∉ name.toList) →
      ∀ f ∈ files, Placed isStem f.path ∧ Confined f.path) := by
  intro is
  have hg : Compiled is g {} files := ho ▸ compiled_of_ok h
  have hconfined : ∀ {path}, Placed isName path → Placed isName path ∧ Confined path :=
    fun hp => ⟨hp, confined_of_placed (fun _ => isStem_of_isName) hp⟩
  refine ⟨fun f hf => ?_, ⟨fun hall id hid hunit _ _ => ?_, fun hall f hf => ?_⟩, fun hdocs f hf => ?_⟩
  · rcases file_cases hg hf with hp | ⟨id, hid, -, hpath, hd, hwrapped⟩
    · exact .inl (hconfined hp)
    · exact .inr ⟨id, hid, hpath, hd, hwrapped⟩
  · obtain ⟨f, hf, hpath⟩ := exists_file hg (mem_units_iff.mpr (.inl ⟨id, hid, hunit, rfl⟩))
    have hplaced := (hall f hf).1
    rw [hpath, placed_isName_iff] at hplaced
    exact hplaced
  · rcases file_cases hg hf with hp | ⟨id, hid, hunit, hpath, hd, hwrapped⟩
    · exact hconfined hp
    · rw [hpath]
      exact hconfined (placed_isName_iff.mpr (hall id hid hunit hd hwrapped))
  · have hlines : ∀ decl, .declaration decl ∈ is → decl.toSignature.Spelled := by
      intro decl hmem
      rcases List.mem_append.mp hmem with hmem | hmem <;> exact Schema.spelled_of_mem_contents hmem
    have hplaced := placed_isStem hg hlines hdocs hf
    exact ⟨hplaced, confined_of_placed (fun _ hs => hs) hplaced⟩

/-- A function that gives back a sequence of a type whose name starts with a digit: one path has no
identifier for its stem, and all stay below the output directory. -/
theorem paths_placed_digit :
    ∃ g files log, compileSchemas {} "user name:string = User;" "getAll = vector<9>;" =
        (.ok (g, files), log) ∧
      files.map (·.path) = ["Objects/User.cs", "Objects/9.cs", "Functions/GetAll.cs"] ∧
      ∀ f ∈ files, Placed isStem f.path ∧ Confined f.path := by
  have hrun : yields {} "user name:string = User;" "getAll = vector<9>;" (fun _ files =>
      files.map (·.path) = ["Objects/User.cs", "Objects/9.cs", "Functions/GetAll.cs"]) = true := by
    decide +kernel
  obtain ⟨g, files, log, hrun, hpaths⟩ := exists_of_yields hrun
  refine ⟨g, files, log, hrun, of_decide_eq_true hpaths, (paths_placed rfl hrun).2.2 ?_⟩
  have hitems : Schema.contents "user name:string = User;" ++ Schema.contents "getAll = vector<9>;" =
      [.declaration ⟨⟨"user", [⟨"name", "string", 6⟩], "User"⟩, 1, {}⟩,
        .declaration ⟨⟨"getAll", [], "vector<9>"⟩, 1, {}⟩] := by decide +kernel
  intro name d line hmem
  rw [hitems] at hmem
  simp at hmem

/-- The documentation of a union may name a generic type whose leaf leads out of the output
directory. -/
theorem paths_not_confined :
    ¬ ∀ (o : Options) (types functions : String) (g : Registry) (files : List OutputFile)
      (log : Array Notice), o.code = {} → compileSchemas o types functions = (.ok (g, files), log) →
      ∀ f ∈ files, Placed isName f.path ∧ Confined f.path := by
  intro hall
  have hrun : yields {} "//@class vector<../../x>" "" (fun _ files =>
      files.map (·.path) = ["Objects/../../x.cs"]) = true := by
    decide +kernel
  obtain ⟨g, files, log, hrun, hpaths⟩ := exists_of_yields hrun
  obtain ⟨f, hf, hpath⟩ := List.mem_map.mp
    (show "Objects/../../x.cs" ∈ files.map (·.path) by rw [of_decide_eq_true hpaths]; decide)
  have hconfined := (hall {} _ _ g files log rfl hrun f hf).2
  rw [hpath] at hconfined
  exact hconfined.2.2 (by decide +kernel)

end TypeLang
