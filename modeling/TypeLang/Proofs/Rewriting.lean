import TypeLang.Proofs.Directories

/-! # Writing files again

Writing the same files a second time gives the same result and leaves the tree as it is, also where the
first time ended with an error (`writeFiles_idempotent`). The directories are found to be there, so the
second run only puts the files to their places again (`writeFiles_of_grows`), and of the files at one
place the last stands there already (`overwrite_eq_self`). What a run leaves behind besides directories is
exactly the files that were written (`Written`). -/

namespace TypeLang

open PathText

namespace PathText

/-- The path is relative and does not lead upwards. -/
def Inward (path : String) : Prop := isAbsolute path = false ∧ ".." ∉ names path

instance (path : String) : Decidable (Inward path) := inferInstanceAs (Decidable (_ ∧ _))

/-- The names of a path less those that lead nowhere. -/
def steps (path : String) : List String := (names path).filter (· != ".")

theorem Inward.not_mem_names_join {out path : String} (h : Inward path) (hout : ".." ∉ names out) :
    ".." ∉ names (join out path) := by
  rw [names_join h.1, List.mem_append, not_or]
  exact ⟨hout, h.2⟩

end PathText

namespace FileTree
variable {t t' t'' u : FileTree} {loc loc' : Location} {names : List String} {path : String}

/-! ### Writing one file again -/

section Files
variable {out : String} {f : OutputFile} {files : List OutputFile}

theorem writeFile_eq (t : FileTree) (out : String) (f : OutputFile) :
    t.writeFile out f = match t.makeDirectories ((parent? (join out f.path)).getD "") with
      | (.error fault, t₁) => (.error (.file ((parent? (join out f.path)).getD "") fault), t₁)
      | (.ok (), t₁) => match t₁.write (join out f.path) f.contents.toUTF8 with
        | .ok t₂ => (.ok (), t₂)
        | .error fault => (.error (.file (join out f.path) fault), t₁) := by
  rw [writeFile, Disk.writeFile]
  rcases hmake : t.makeDirectories ((parent? (join out f.path)).getD "") with ⟨made, t₁⟩
  rw [run_bind_of_run ((run_makeDirectories t _).trans hmake)]
  cases made with
  | error fault => rfl
  | ok x =>
    have hrun := run_writeText t₁ (join out f.path) f.contents
    dsimp only
    cases hwrite : t₁.write (join out f.path) f.contents.toUTF8 with
    | error fault =>
      rw [hwrite] at hrun
      rw [run_bind_of_run hrun]
      rfl
    | ok t₂ =>
      rw [hwrite] at hrun
      rw [run_bind_of_run hrun]
      rfl

/-- A file that is not written leaves only directories behind. -/
theorem writeFile_eq_error {e : CompileError} (h : t.writeFile out f = (.error e, t')) :
    (∃ fault, t.makeDirectories ((parent? (join out f.path)).getD "") = (.error fault, t') ∧
      e = .file ((parent? (join out f.path)).getD "") fault) ∨
    (∃ fault, t.makeDirectories ((parent? (join out f.path)).getD "") = (.ok (), t') ∧
      t'.write (join out f.path) f.contents.toUTF8 = .error fault ∧ e = .file (join out f.path) fault) := by
  rw [writeFile_eq] at h
  rcases hmake : t.makeDirectories ((parent? (join out f.path)).getD "") with ⟨made, t₁⟩
  rw [hmake] at h
  cases made with
  | error fault =>
    cases h
    exact .inl ⟨fault, rfl, rfl⟩
  | ok x =>
    dsimp only at h
    cases hwrite : t₁.write (join out f.path) f.contents.toUTF8 with
    | error fault =>
      rw [hwrite] at h
      cases h
      exact .inr ⟨fault, rfl, hwrite, rfl⟩
    | ok t₂ =>
      rw [hwrite] at h
      cases h

theorem eq_makeDirectories_of_error {e : CompileError} (h : t.writeFile out f = (.error e, t')) :
    t' = (t.makeDirectories ((parent? (join out f.path)).getD "")).2 := by
  rcases writeFile_eq_error h with ⟨_, hmake, -⟩ | ⟨_, hmake, -, -⟩
  · rw [hmake]
  · rw [hmake]

/-- A failure repeats itself: the directories that were made on the way make no difference. -/
theorem writeFile_again_of_error (ht : t.IsTree) (hup : ".." ∉ PathText.names (join out f.path))
    {e : CompileError} (h : t.writeFile out f = (.error e, t')) :
    t'.writeFile out f = (.error e, t') := by
  have hagain := makeDirectories_again ht (not_mem_names_parent hup) (.refl _)
  rw [← eq_makeDirectories_of_error h] at hagain
  rw [writeFile_eq, hagain]
  rcases writeFile_eq_error h with ⟨fault, hmake, rfl⟩ | ⟨fault, hmake, hwrite, rfl⟩
  · rw [hmake]
  · rw [hmake]
    dsimp only
    rw [hwrite]

theorem write_of_walk {above : List String} {name : String}
    (hnames : PathText.names path = above ++ [name]) (hcheck : checkPath path = .ok ())
    (hslash : endsInSlash path = false) (hwalk : t.walk (t.start path) above = .ok loc)
    (hdir : t.node? loc = some .directory)
    (hname : name ≠ "." ∧ name ≠ ".." ∧ name.utf8ByteSize ≤ longestName)
    (hnode : t.node? (name :: loc) ≠ some .directory) (contents : ByteArray) :
    t.write path contents = .ok (t.put (name :: loc) (.file contents)) := by
  obtain ⟨hdot, hdots, hlong⟩ := hname
  have hreverse : (PathText.names path).reverse = name :: above.reverse := by
    rw [hnames, List.reverse_append]
    rfl
  rw [write, hcheck]
  simp only [bind, Except.bind, hreverse, List.reverse_reverse, hwalk, hdir, hslash, hdot, hdots,
    decide_false, Bool.or_false, Bool.false_eq_true, if_false, if_neg (Nat.not_lt.mpr hlong)]

theorem grows_write {contents : ByteArray} (h : t.write path contents = .ok t') : Grows t t' := by
  obtain ⟨_, _, _, -, -, -, -, -, -, hnode, rfl⟩ := write_eq_ok h
  exact grows_put_file hnode contents

theorem IsTree.write (ht : t.IsTree) {contents : ByteArray} (h : t.write path contents = .ok t') :
    t'.IsTree := by
  obtain ⟨_, _, _, -, -, -, -, hdir, -, hnode, rfl⟩ := write_eq_ok h
  exact ht.put hdir hnode _

theorem grows_writeFile (h : t.writeFile out f = (.ok (), t')) : Grows t t' := by
  obtain ⟨t₁, hmake, hwrite⟩ := writeFile_eq_ok h
  have hgrows := grows_makeDirectories t ((parent? (join out f.path)).getD "")
  rw [hmake] at hgrows
  exact hgrows.trans (grows_write hwrite)

theorem IsTree.writeFile (ht : t.IsTree) (hup : ".." ∉ PathText.names (join out f.path))
    (h : t.writeFile out f = (.ok (), t')) : t'.IsTree := by
  obtain ⟨t₁, hmake, hwrite⟩ := writeFile_eq_ok h
  have ht₁ := ht.makeDirectories (not_mem_names_parent hup)
  rw [hmake] at ht₁
  exact ht₁.write hwrite

/-- A file that was written is put to its place again, in whatever the tree has become. -/
theorem writeFile_of_grows (ht : t.IsTree) (hup : ".." ∉ PathText.names (join out f.path))
    (h : t.writeFile out f = (.ok (), t')) (hu : Grows t' u) :
    u.writeFile out f = (.ok (), u.put (u.place (join out f.path)) (.file f.contents.toUTF8)) := by
  obtain ⟨t₁, hmake, hwrite⟩ := writeFile_eq_ok h
  have hgrows := (grows_write hwrite).trans hu
  have hagain : u.makeDirectories ((parent? (join out f.path)).getD "") = (.ok (), u) := by
    have hagain := makeDirectories_again (u := u) ht (not_mem_names_parent hup)
    rw [hmake] at hagain
    exact hagain hgrows
  obtain ⟨above, name, loc, hnames, hcheck, hslash, hwalk, hdir, hname, hnode, rfl⟩ := write_eq_ok hwrite
  have hwalk' : u.walk (u.start (join out f.path)) above = .ok loc := by
    rw [hgrows.keeps.start]
    exact hgrows.keeps.walk hwalk
  have hplace : u.place (join out f.path) = name :: loc := by
    rw [place, hnames, follow_append, ← eq_follow_of_walk hwalk', follow_singleton hname.1 hname.2.1]
  -- the place holds a file, and goes on to do so
  have hfile : u.node? (name :: loc) ≠ some .directory := by
    obtain ⟨c, hc⟩ := hu.file (name :: loc) f.contents.toUTF8 (by rw [node?_put hnode, if_pos rfl])
    rw [hc]
    simp
  rw [writeFile_eq, hagain]
  dsimp only
  rw [write_of_walk hnames hcheck hslash hwalk' (hgrows.directory loc hdir) hname hfile, hplace]

theorem node?_of_read {contents : ByteArray} (h : t.read path = .ok contents) :
    t.node? (t.place path) = some (.file contents) := by
  obtain ⟨-, -, loc, hwalk, hfile⟩ := read_eq_ok_iff.mp h
  rw [place, ← eq_follow_of_walk hwalk]
  exact hfile

/-! ### Putting files to their places -/

theorem putEntry_putEntry (loc : Location) (a b : Node) (es : List (Location × Node)) :
    putEntry loc b (putEntry loc a es) = putEntry loc b es := by
  induction es with
  | nil => simp [putEntry]
  | cons e es ih =>
    by_cases he : e.1 = loc
    · simp [putEntry, he]
    · simp [putEntry, he, ih]

theorem putEntry_comm {loc loc' : Location} (hne : loc ≠ loc') (a b : Node) {es : List (Location × Node)}
    (h : (es.lookup loc).isSome = true) :
    putEntry loc' b (putEntry loc a es) = putEntry loc a (putEntry loc' b es) := by
  induction es with
  | nil => cases h
  | cons e es ih =>
    obtain ⟨key, node⟩ := e
    by_cases hkey : key = loc
    · subst hkey
      simp [putEntry, hne]
    · have hrest : (es.lookup loc).isSome = true := by
        rwa [lookup_cons_eq_if, if_neg (Ne.symm hkey)] at h
      by_cases hkey' : key = loc'
      · subst hkey'
        simp [putEntry, hkey]
      · simp [putEntry, hkey, hkey', ih hrest]

theorem putEntry_eq_self {node : Node} {es : List (Location × Node)} (h : es.lookup loc = some node) :
    putEntry loc node es = es := by
  induction es with
  | nil => cases h
  | cons e es ih =>
    obtain ⟨key, value⟩ := e
    rw [lookup_cons_eq_if] at h
    by_cases hkey : loc = key
    · rw [if_pos hkey] at h
      cases h
      simp [putEntry, hkey]
    · rw [if_neg hkey] at h
      simp [putEntry, Ne.symm hkey, ih h]

/-- A file is among the entries. -/
theorem lookup_of_file {c : ByteArray} (h : t.node? loc = some (.file c)) :
    t.entries.lookup loc = some (.file c) := by
  rw [node?] at h
  split at h
  · cases h
  · exact h

/-- Puts files to their places, one after the other. -/
def overwrite (t : FileTree) (out : String) : List OutputFile → FileTree
  | [] => t
  | f :: files =>
    (t.put (t.place (join out f.path)) (.file f.contents.toUTF8)).overwrite out files

/-- What is put to a place makes no difference if a file is put there later. -/
theorem overwrite_put {node : Node} (h : (t.entries.lookup loc).isSome = true)
    (hlater : ∃ g ∈ files, t.place (join out g.path) = loc) :
    (t.put loc node).overwrite out files = t.overwrite out files := by
  induction files generalizing t with
  | nil =>
    obtain ⟨g, hg, -⟩ := hlater
    cases hg
  | cons f files ih =>
    have hplace : (t.put loc node).place (join out f.path) = t.place (join out f.path) := rfl
    rw [overwrite, overwrite, hplace]
    by_cases hloc : t.place (join out f.path) = loc
    · rw [hloc, put, put, put, putEntry_putEntry]
    · have hcomm : (t.put loc node).put (t.place (join out f.path)) (.file f.contents.toUTF8) =
          (t.put (t.place (join out f.path)) (.file f.contents.toUTF8)).put loc node := by
        rw [put, put, put, put, putEntry_comm (Ne.symm hloc) _ _ h]
      rw [hcomm]
      refine ih ?_ ?_
      · show ((putEntry _ _ t.entries).lookup loc).isSome = true
        rw [lookup_putEntry, if_neg (Ne.symm hloc)]
        exact h
      · obtain ⟨g, hg, hgloc⟩ := hlater
        rcases List.mem_cons.mp hg with rfl | hg
        · exact absurd hgloc hloc
        · exact ⟨g, hg, hgloc⟩

/-- If each place holds a file, namely the last that goes there, putting the files changes nothing. -/
theorem overwrite_eq_self (hfile : ∀ f ∈ files, ∃ c, t.node? (t.place (join out f.path)) = some (.file c))
    (hlast : ∀ before f after, files = before ++ f :: after →
      (∀ g ∈ after, t.place (join out g.path) ≠ t.place (join out f.path)) →
      t.node? (t.place (join out f.path)) = some (.file f.contents.toUTF8)) :
    t.overwrite out files = t := by
  induction files with
  | nil => rfl
  | cons f files ih =>
    have hrest : t.overwrite out files = t :=
      ih (fun g hg => hfile g (List.mem_cons_of_mem f hg)) fun before g after hcut =>
        hlast (f :: before) g after (by rw [hcut, List.cons_append])
    rw [overwrite]
    by_cases hlater : ∃ g ∈ files, t.place (join out g.path) = t.place (join out f.path)
    · obtain ⟨c, hc⟩ := hfile f List.mem_cons_self
      rw [overwrite_put (by rw [lookup_of_file hc]; rfl) hlater, hrest]
    · have hnode := hlast [] f files rfl fun g hg heq => hlater ⟨g, hg, heq⟩
      rw [put, putEntry_eq_self (lookup_of_file hnode)]
      exact hrest

/-! ### Writing files again -/

theorem writeFiles_cons (t : FileTree) (out : String) (f : OutputFile) (files : List OutputFile) :
    t.writeFiles out (f :: files) = match t.writeFile out f with
      | (.error e, t₁) => (.error e, t₁)
      | (.ok (), t₁) => t₁.writeFiles out files := by
  rw [writeFiles, Disk.writeFiles]
  rcases hfile : t.writeFile out f with ⟨written, t₁⟩
  rw [run_bind_of_run hfile]
  cases written with
  | error e => rfl
  | ok u => rfl

/-- A run that fails goes well up to a file that cannot be written. -/
theorem writeFiles_eq_error {e : CompileError} (h : t.writeFiles out files = (.error e, t')) :
    ∃ before f after t₁, files = before ++ f :: after ∧ t.writeFiles out before = (.ok (), t₁) ∧
      t₁.writeFile out f = (.error e, t') := by
  induction files generalizing t with
  | nil => cases h
  | cons f files ih =>
    rw [writeFiles_cons] at h
    rcases hfile : t.writeFile out f with ⟨written, t₁⟩
    rw [hfile] at h
    cases written with
    | error e' =>
      cases h
      exact ⟨[], f, files, t, rfl, rfl, hfile⟩
    | ok x =>
      obtain ⟨before, g, after, t₂, rfl, hbefore, hg⟩ := ih h
      refine ⟨f :: before, g, after, t₂, rfl, ?_, hg⟩
      rw [writeFiles_cons, hfile]
      exact hbefore

theorem writeFiles_of_error {before after : List OutputFile} {e : CompileError}
    (hbefore : t.writeFiles out before = (.ok (), t')) (hf : t'.writeFile out f = (.error e, t'')) :
    t.writeFiles out (before ++ f :: after) = (.error e, t'') := by
  induction before generalizing t with
  | nil =>
    cases hbefore
    rw [List.nil_append, writeFiles_cons, hf]
  | cons g before ih =>
    obtain ⟨t₁, hg, hrest⟩ := writeFiles_cons_eq_ok hbefore
    rw [List.cons_append, writeFiles_cons, hg]
    exact ih hrest

theorem IsTree.writeFiles (ht : t.IsTree) (hups : ∀ f ∈ files, ".." ∉ PathText.names (join out f.path))
    (h : t.writeFiles out files = (.ok (), t')) : t'.IsTree := by
  induction files generalizing t with
  | nil => cases h; exact ht
  | cons f files ih =>
    obtain ⟨hup, hups⟩ := List.forall_mem_cons.mp hups
    obtain ⟨t₁, hfile, hrest⟩ := writeFiles_cons_eq_ok h
    exact ih (ht.writeFile hup hfile) hups hrest

theorem grows_writeFiles (h : t.writeFiles out files = (.ok (), t')) : Grows t t' := by
  induction files generalizing t with
  | nil => cases h; exact .refl _
  | cons f files ih =>
    obtain ⟨t₁, hfile, hrest⟩ := writeFiles_cons_eq_ok h
    exact (grows_writeFile hfile).trans (ih hrest)

/-- The files of a run that went well are put to their places again, in whatever the tree has become. -/
theorem writeFiles_of_grows (ht : t.IsTree) (hups : ∀ f ∈ files, ".." ∉ PathText.names (join out f.path))
    (h : t.writeFiles out files = (.ok (), t')) (hu : Grows t' u) :
    u.writeFiles out files = (.ok (), u.overwrite out files) := by
  induction files generalizing t u with
  | nil => rfl
  | cons f files ih =>
    obtain ⟨hup, hups⟩ := List.forall_mem_cons.mp hups
    obtain ⟨t₁, hfile, hrest⟩ := writeFiles_cons_eq_ok h
    have hgrows := (grows_writeFiles hrest).trans hu
    obtain ⟨c, hc⟩ := hgrows.file _ _ (node?_of_read (keeps_writeFile hfile).1)
    have hplace : u.place (join out f.path) = t₁.place (join out f.path) := hgrows.keeps.place _
    rw [writeFiles_cons, writeFile_of_grows ht hup hfile hgrows]
    refine ih (ht.writeFile hup hfile) hups hrest (hu.trans (grows_put_file ?_ _))
    rw [hplace, hc]
    simp

theorem exists_file_of_writeFiles (h : t.writeFiles out files = (.ok (), t')) :
    ∀ f ∈ files, ∃ c, t'.node? (t'.place (join out f.path)) = some (.file c) := by
  induction files generalizing t with
  | nil => simp
  | cons f files ih =>
    obtain ⟨t₁, hfile, hrest⟩ := writeFiles_cons_eq_ok h
    refine List.forall_mem_cons.mpr ⟨?_, ih hrest⟩
    rw [(grows_writeFiles hrest).keeps.place]
    exact (grows_writeFiles hrest).file _ _ (node?_of_read (keeps_writeFile hfile).1)

/-- After a run that went well, a second one changes nothing, nor do directories that were made in
between. -/
theorem writeFiles_of_keeps (ht : t.IsTree) (hups : ∀ f ∈ files, ".." ∉ PathText.names (join out f.path))
    (h : t.writeFiles out files = (.ok (), t')) (hgrows : Grows t' u) (hkeeps : Keeps (fun _ => False) t' u) :
    u.writeFiles out files = (.ok (), u) := by
  have hplace (path : String) : u.place path = t'.place path := hkeeps.place path
  rw [writeFiles_of_grows ht hups h hgrows, overwrite_eq_self]
  · intro f hf
    obtain ⟨c, hc⟩ := exists_file_of_writeFiles h f hf
    exact ⟨c, by rw [hplace, hkeeps.file _ id]; exact hc⟩
  · intro before f after hcut hlast
    rw [hcut] at h
    have hsame (path : String) : t.place path = u.place path := by
      rw [hplace, (grows_writeFiles h).keeps.place]
    have hread := read_writeFiles h fun g hg => by
      rw [hsame, hsame]
      exact hlast g hg
    rw [hplace, hkeeps.file _ id]
    exact node?_of_read hread

/-! ### Paths that lead to the same place -/

theorem follow_eq (loc : Location) (h : ".." ∉ names) :
    follow loc names = (names.filter (· != ".")).reverse ++ loc := by
  fun_induction follow loc names with
  | case1 => rfl
  | case2 loc names ih =>
    rw [ih (List.not_mem_of_not_mem_cons h), List.filter_cons_of_neg (by simp)]
  | case3 => exact absurd List.mem_cons_self h
  | case4 loc name names hdot hdots ih =>
    rw [ih (List.not_mem_of_not_mem_cons h), List.filter_cons_of_pos (by simpa using hdot),
      List.reverse_cons, List.append_assoc, List.singleton_append]

theorem place_join_eq_iff {p q : String} (hp : Inward p) (hq : Inward q) (t : FileTree) (out : String) :
    t.place (join out p) = t.place (join out q) ↔ steps p = steps q := by
  rw [place_join hp.1, place_join hq.1, follow_eq _ hp.2, follow_eq _ hq.2, List.append_cancel_right_eq,
    List.reverse_inj, steps, steps]

/-- The files have been written and no others: each place holds the last file that goes there, and
elsewhere there are the files that were there before. -/
structure Written (t t' : FileTree) (out : String) (files : List OutputFile) : Prop where
  read : ∀ before f after, files = before ++ f :: after → (∀ g ∈ after, steps g.path ≠ steps f.path) →
    t'.read (join out f.path) = .ok f.contents.toUTF8
  other : ∀ loc, (∀ f ∈ files, loc ≠ t.place (join out f.path)) →
    ∀ c, t'.node? loc = some (.file c) ↔ t.node? loc = some (.file c)

theorem written_of_keeps (hfiles : ∀ f ∈ files, Inward f.path) (h : t.writeFiles out files = (.ok (), t'))
    (hkeeps : Keeps (fun _ => False) t' t'') : Written t t'' out files where
  read before f after hcut hlast := by
    rw [hcut] at h hfiles
    obtain ⟨-, hrest⟩ := List.forall_mem_append.mp hfiles
    obtain ⟨hf, hafter⟩ := List.forall_mem_cons.mp hrest
    refine hkeeps.read id (read_writeFiles h fun g hg => ?_)
    rw [Ne, place_join_eq_iff (hafter g hg) hf]
    exact hlast g hg
  other loc hloc c := by
    rw [hkeeps.file loc id, (keeps_writeFiles h).file loc]
    rintro ⟨f, hf, heq⟩
    exact hloc f hf heq

end Files

/-! ### Compiling files -/

/-- The text of a schema file, as far as it can be read. -/
def readSchema (t : FileTree) (path : String) : Except CompileError String :=
  ((Disk.readSchema path : StateM FileTree (Except CompileError String)).run t).1

/-- What two schema files compile to, before anything is written. -/
def compiled (t : FileTree) (o : Options) (types functions : String) :
    Except CompileError (List OutputFile) := do
  let typesText ← t.readSchema types
  let functionsText ← t.readSchema functions
  match (Compile.schemas o (types, typesText) (functions, functionsText)).run {} with
  | .error e _ => .error e
  | .ok files _ => .ok files

theorem run_readSchema (t : FileTree) (path : String) :
    (Disk.readSchema path : StateM FileTree (Except CompileError String)).run t = (t.readSchema path, t) :=
  rfl

theorem run_writeAll (t : FileTree) (out : String) (files : List OutputFile) :
    ∃ notices, (Disk.writeAll out files : StateM FileTree (Except CompileError Unit × Array Notice)).run t =
      (((t.writeFiles out files).1, notices), (t.writeFiles out files).2) := by
  rcases hrun : t.writeFiles out files with ⟨written, t'⟩
  rw [Disk.writeAll, run_bind_of_run hrun]
  cases written with
  | error e => exact ⟨_, rfl⟩
  | ok x => exact ⟨_, rfl⟩

/-- Compiling files touches the tree only to write what the schemas compile to. -/
theorem run_compileFiles (t : FileTree) (o : Options) (types functions out : String) :
    ∃ notices, (Disk.compileFiles o types functions out : StateM FileTree _).run t =
      match t.compiled o types functions with
      | .error e => ((.error e, notices), t)
      | .ok files => (((t.writeFiles out files).1.map fun () => files, notices),
          (t.writeFiles out files).2) := by
  rw [Disk.compileFiles, Disk.withSchemas, run_bind_of_run (run_readSchema t types), compiled]
  cases htypes : t.readSchema types with
  | error e => exact ⟨_, rfl⟩
  | ok typesText =>
    dsimp only
    rw [run_bind_of_run (run_readSchema t functions)]
    cases hfunctions : t.readSchema functions with
    | error e => exact ⟨_, rfl⟩
    | ok functionsText =>
      simp only [bind, Except.bind]
      cases hschemas : (Compile.schemas o (types, typesText) (functions, functionsText)).run {} with
      | error e c => exact ⟨_, rfl⟩
      | ok files c =>
        obtain ⟨notices, hwrite⟩ := run_writeAll t out files
        refine ⟨c.log ++ notices, ?_⟩
        exact run_bind_of_run hwrite

/-- Writing files a second time gives the same result and the same tree. What a run leaves behind is
exactly the files that go before the one that fails, and all of them if none does. And a compilation
that fails before it writes leaves the tree as it is. -/
theorem writeFiles_idempotent {t t' : FileTree} {out : String} {files : List OutputFile}
    {r : Except CompileError Unit} (ht : t.IsTree) (hout : ".." ∉ PathText.names out)
    (hfiles : ∀ f ∈ files, Inward f.path) (h : t.writeFiles out files = (r, t')) :
    t'.writeFiles out files = (r, t') ∧
    (r = .ok () → Written t t' out files) ∧
    (∀ e, r = .error e → ∃ before f after t₁, files = before ++ f :: after ∧
      t.writeFiles out before = (.ok (), t₁) ∧ t₁.writeFile out f = (.error e, t') ∧
      Written t t' out before) ∧
    ∀ o types functions e, t.compiled o types functions = .error e → ∃ notices,
      (Disk.compileFiles o types functions out : StateM FileTree _).run t = ((.error e, notices), t) := by
  have hups : ∀ f ∈ files, ".." ∉ PathText.names (join out f.path) :=
    fun f hf => (hfiles f hf).not_mem_names_join hout
  have hcompile (o types functions e) (he : t.compiled o types functions = .error e) : ∃ notices,
      (Disk.compileFiles o types functions out : StateM FileTree _).run t = ((.error e, notices), t) := by
    obtain ⟨notices, hrun⟩ := run_compileFiles t o types functions out
    rw [he] at hrun
    exact ⟨notices, hrun⟩
  cases r with
  | ok x =>
    refine ⟨writeFiles_of_keeps ht hups h (.refl t') (.refl t'), fun _ => ?_, nofun, hcompile⟩
    exact written_of_keeps hfiles h (.refl t')
  | error e =>
    obtain ⟨before, f, after, t₁, rfl, hbefore, hf⟩ := writeFiles_eq_error h
    obtain ⟨hupBefore, hupRest⟩ := List.forall_mem_append.mp hups
    have hkeeps := keeps_makeDirectories t₁ ((parent? (join out f.path)).getD "")
    have hgrows := grows_makeDirectories t₁ ((parent? (join out f.path)).getD "")
    rw [← eq_makeDirectories_of_error hf] at hkeeps hgrows
    -- the files before the failing one stand where they were put, and the failure repeats itself
    have hagain := writeFiles_of_keeps ht hupBefore hbefore hgrows hkeeps
    have hfail := writeFile_again_of_error (ht.writeFiles hupBefore hbefore)
      (hupRest f List.mem_cons_self) hf
    refine ⟨writeFiles_of_error hagain hfail, nofun, ?_, hcompile⟩
    rintro _ ⟨⟩
    exact ⟨before, f, after, t₁, rfl, hbefore, hf,
      written_of_keeps (List.forall_mem_append.mp hfiles).1 hbefore hkeeps⟩

theorem isTree_empty : ({} : FileTree).IsTree := by
  intro name loc hs
  simp [node?] at hs

/-- The second file needs a directory below a place that the first has taken. -/
theorem writeFiles_idempotent_blocked :
    let files : List OutputFile := [⟨"./a", "1"⟩, ⟨"a/b/c", "2"⟩, ⟨"d", "3"⟩]
    ∃ t', ({} : FileTree).writeFiles "out" files = (.error (.file "out/a/b" .notDirectory), t') ∧
      t'.writeFiles "out" files = (.error (.file "out/a/b" .notDirectory), t') ∧
      ∃ before f after, files = before ++ f :: after ∧ Written {} t' "out" before := by
  intro files
  have hrun : ({} : FileTree).writeFiles "out" files = (.error (.file "out/a/b" .notDirectory), _) := rfl
  obtain ⟨hagain, -, herror, -⟩ := writeFiles_idempotent isTree_empty (by decide) (by decide) hrun
  obtain ⟨before, f, after, -, hcut, -, -, hwritten⟩ := herror _ rfl
  exact ⟨_, hrun, hagain, before, f, after, hcut, hwritten⟩

end FileTree

end TypeLang
