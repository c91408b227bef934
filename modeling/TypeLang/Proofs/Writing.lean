import Mathlib.Data.List.Basic
import TypeLang.Disk
import TypeLang.Proofs.Paths

/-! # Writing to a file tree

A path that can be walked leads to the place that its components spell (`eq_follow_of_walk`), so
where a file is written does not depend on what the tree holds. Making directories and writing a file
change a tree at one place at most: `Keeps P t t'` says that at places outside of `P` the same files
stand in both trees, and that what was a directory is one. Both operations keep the tree in this sense
(`keeps_makeFrom`, `keeps_write`), what was written can be read (`read_write`), and reading goes on to
give the same as long as the place is not written again (`Keeps.read`). -/

namespace TypeLang

open PathText

namespace FileTree
variable {t t' t'' : FileTree} {loc loc' : Location} {names : List String} {path : String}
  {P Q : Location → Prop}

/-! ### Places -/

/-- The place that names spell from a given place, whatever stands on the way. -/
def follow (loc : Location) : List String → Location
  | [] => loc
  | name :: names =>
    if name = "." then follow loc names
    else if name = ".." then follow loc.tail names
    else follow (name :: loc) names

theorem follow_append (loc : Location) (as bs : List String) :
    follow loc (as ++ bs) = follow (follow loc as) bs := by
  fun_induction follow loc as with
  | case1 => rfl
  | case2 loc names ih => rw [List.cons_append, follow, if_pos rfl, ih]
  | case3 loc names h ih => rw [List.cons_append, follow, if_neg h, if_pos rfl, ih]
  | case4 loc name names h h' ih => rw [List.cons_append, follow, if_neg h, if_neg h', ih]

theorem follow_singleton {name : String} (h : name ≠ ".") (h' : name ≠ "..") (loc : Location) :
    follow loc [name] = name :: loc := by
  rw [follow, if_neg h, if_neg h', follow]

/-- The place of a path. -/
def place (t : FileTree) (path : String) : Location := follow (t.start path) (PathText.names path)

/-- A relative path leads on from the place of the directory that it is joined to. -/
theorem place_join {file : String} (h : isAbsolute file = false) (t : FileTree) (dir : String) :
    t.place (join dir file) = follow (t.place dir) (PathText.names file) := by
  have hstart : t.start (join dir file) = t.start dir := by
    rw [start, isAbsolute_join h, start]
  rw [place, hstart, names_join h, follow_append, place]

theorem eq_follow_of_walk (h : t.walk loc names = .ok loc') : loc' = follow loc names := by
  induction names generalizing loc with
  | nil => cases h; rfl
  | cons name names ih =>
    rw [walk] at h
    rw [follow]
    split at h
    · split_ifs at h ⊢
      · exact ih h
      · exact ih h
      · exact ih h
    · cases h

theorem walk_append (loc : Location) (as bs : List String) :
    t.walk loc (as ++ bs) = (t.walk loc as).bind fun l => t.walk l bs := by
  induction as generalizing loc with
  | nil => rfl
  | cons name as ih =>
    rw [List.cons_append, walk, walk]
    split
    · split_ifs
      · exact ih loc
      · exact ih loc.tail
      · rfl
      · exact ih (name :: loc)
      · rfl
    · rfl

/-! ### One change -/

theorem lookup_putEntry (loc loc' : Location) (node : Node) (es : List (Location × Node)) :
    (putEntry loc node es).lookup loc' = if loc' = loc then some node else es.lookup loc' := by
  induction es with
  | nil => rw [putEntry, lookup_cons_eq_if]
  | cons e es ih =>
    obtain ⟨key, value⟩ := e
    rw [putEntry]
    split
    next hkey =>
      obtain rfl : key = loc := hkey
      rw [lookup_cons_eq_if, lookup_cons_eq_if]
      split <;> rfl
    next hkey =>
      rw [lookup_cons_eq_if, lookup_cons_eq_if, ih]
      by_cases h : loc' = key
      · rw [if_pos h, if_pos h, if_neg]
        rintro rfl
        exact hkey h.symm
      · rw [if_neg h, if_neg h]

/-- A node that is put where no directory stands is found there, and all else as before. -/
theorem node?_put (h : t.node? loc ≠ some .directory) (node : Node) (loc' : Location) :
    (t.put loc node).node? loc' = if loc' = loc then some node else t.node? loc' := by
  have hhome : loc.isSuffixOf t.home = false := by
    cases hs : loc.isSuffixOf t.home with
    | false => rfl
    | true => exact absurd (by rw [node?, hs, if_pos rfl]) h
  show (if loc'.isSuffixOf t.home then some Node.directory else (putEntry loc node t.entries).lookup loc') = _
  rw [lookup_putEntry]
  by_cases heq : loc' = loc
  · rw [heq, hhome, if_pos rfl, if_pos rfl, if_neg Bool.false_ne_true]
  · rw [if_neg heq, if_neg heq]
    rfl

/-- Directories stay, nothing is taken away, and outside of `P` the same files stand at the same
places. -/
structure Keeps (P : Location → Prop) (t t' : FileTree) : Prop where
  home : t'.home = t.home
  directory : ∀ loc, t.node? loc = some .directory → t'.node? loc = some .directory
  isSome : ∀ loc, (t.node? loc).isSome = true → (t'.node? loc).isSome = true
  file : ∀ loc, ¬ P loc → ∀ c, t'.node? loc = some (.file c) ↔ t.node? loc = some (.file c)

namespace Keeps

theorem refl (t : FileTree) : Keeps P t t := ⟨rfl, fun _ h => h, fun _ h => h, fun _ _ _ => .rfl⟩

theorem trans (h : Keeps P t t') (h' : Keeps Q t' t'') : Keeps (fun loc => P loc ∨ Q loc) t t'' where
  home := h'.home.trans h.home
  directory loc hd := h'.directory loc (h.directory loc hd)
  isSome loc hs := h'.isSome loc (h.isSome loc hs)
  file loc hloc c := by
    rw [not_or] at hloc
    rw [h'.file loc hloc.2 c, h.file loc hloc.1 c]

theorem mono (h : Keeps P t t') (hPQ : ∀ loc, P loc → Q loc) : Keeps Q t t' :=
  { h with file := fun loc hloc => h.file loc fun hp => hloc (hPQ loc hp) }

theorem start (h : Keeps P t t') (path : String) : t'.start path = t.start path := by
  rw [FileTree.start, h.home, FileTree.start]

theorem place (h : Keeps P t t') (path : String) : t'.place path = t.place path := by
  rw [FileTree.place, h.start, FileTree.place]

theorem walk (h : Keeps P t t') (hw : t.walk loc names = .ok loc') : t'.walk loc names = .ok loc' := by
  induction names generalizing loc with
  | nil => exact hw
  | cons name names ih =>
    rw [FileTree.walk] at hw ⊢
    split at hw
    · next hd =>
      rw [h.directory loc hd]
      dsimp only
      split_ifs at hw with hdot hup hlong hsome
      · rw [if_pos hdot]; exact ih hw
      · rw [if_neg hdot, if_pos hup]; exact ih hw
      · rw [if_neg hdot, if_neg hup, if_neg hlong, if_pos (h.isSome _ hsome)]; exact ih hw
    · cases hw

end Keeps

theorem keeps_put {node : Node} (h : t.node? loc ≠ some .directory) :
    Keeps (· = loc) t (t.put loc node) where
  home := rfl
  directory l hd := by
    rw [node?_put h, if_neg]
    · exact hd
    · rintro rfl; exact h hd
  isSome l hs := by
    rw [node?_put h]
    split
    · rfl
    · exact hs
  file l hl c := by rw [node?_put h, if_neg hl]

/-! ### Making directories -/

theorem keeps_put_directory (h : t.node? loc = none) :
    Keeps (fun _ => False) t (t.put loc .directory) := by
  have hne : t.node? loc ≠ some .directory := by rw [h]; simp
  have hput : Keeps (· = loc) t (t.put loc .directory) := keeps_put hne
  refine { hput with file := fun l _ c => ?_ }
  by_cases hl : l = loc
  · -- a new directory is no file, and nothing stood there before
    rw [node?_put hne, if_pos hl, hl, h]
    simp
  · exact hput.file l hl c

theorem keeps_makeFrom (t : FileTree) (made : Bool) (loc : Location) (names : List String) :
    Keeps (fun _ => False) t (t.makeFrom made loc names).2 := by
  fun_induction makeFrom t made loc names with
  | case1 => exact .refl _
  | case2 t made loc names ih => exact ih
  | case3 t made loc names _ ih => exact ih
  | case4 => exact .refl _
  | case5 t made loc name names _ _ _ _ ih => exact ih
  | case6 => exact .refl _
  | case7 t made loc name names _ _ _ hnone ih =>
    exact ((keeps_put_directory hnone).trans ih).mono fun _ h => h.elim id id

theorem keeps_makeDirectories (t : FileTree) (path : String) :
    Keeps (fun _ => False) t (t.makeDirectories path).2 := by
  unfold makeDirectories
  split
  · exact .refl t
  · split
    · exact .refl t
    · exact keeps_makeFrom t _ _ _

/-! ### Writing one file -/

/-- What has to hold for a file to be written: the path ends in a name, all above it is there, and no
directory has the name. -/
theorem write_eq_ok {contents : ByteArray} (h : t.write path contents = .ok t') :
    ∃ above name loc, PathText.names path = above ++ [name] ∧ checkPath path = .ok () ∧
      endsInSlash path = false ∧ t.walk (t.start path) above = .ok loc ∧
      t.node? loc = some .directory ∧ (name ≠ "." ∧ name ≠ ".." ∧ name.utf8ByteSize ≤ longestName) ∧
      t.node? (name :: loc) ≠ some .directory ∧ t' = t.put (name :: loc) (.file contents) := by
  rw [write] at h
  obtain ⟨⟨⟩, hcheck, h⟩ := exists_of_bind_eq_ok h
  split at h
  · cases h
  · next name above hnames =>
    obtain ⟨loc, hwalk, h⟩ := exists_of_bind_eq_ok h
    split at h
    · next hdir =>
      split_ifs at h with hdots hlong
      split at h
      · cases h
      · next hnode =>
        cases h
        simp only [Bool.or_eq_true, decide_eq_true_eq, not_or, Bool.not_eq_true] at hdots
        refine ⟨above.reverse, name, loc, ?_, hcheck, hdots.1.1, hwalk, hdir,
          ⟨hdots.1.2, hdots.2, Nat.not_lt.mp hlong⟩, hnode, rfl⟩
        rw [← List.reverse_cons, ← hnames, List.reverse_reverse]
    · cases h

theorem keeps_write {contents : ByteArray} (h : t.write path contents = .ok t') :
    Keeps (· = t.place path) t t' := by
  obtain ⟨above, name, loc, hnames, -, -, hwalk, -, ⟨hdot, hup, -⟩, hnode, rfl⟩ := write_eq_ok h
  have hplace : t.place path = name :: loc := by
    rw [place, hnames, follow_append, ← eq_follow_of_walk hwalk, follow_singleton hdot hup]
  rw [hplace]
  exact keeps_put hnode

theorem read_eq_ok_iff {contents : ByteArray} :
    t.read path = .ok contents ↔ checkPath path = .ok () ∧ endsInSlash path = false ∧
      ∃ loc, t.walk (t.start path) (PathText.names path) = .ok loc ∧
        t.node? loc = some (.file contents) := by
  rw [read]
  constructor
  · intro h
    obtain ⟨⟨⟩, hcheck, h⟩ := exists_of_bind_eq_ok h
    obtain ⟨loc, hwalk, h⟩ := exists_of_bind_eq_ok h
    split at h
    · next hnode =>
      split_ifs at h with hslash
      cases h
      exact ⟨hcheck, Bool.eq_false_iff.mpr hslash, loc, hwalk, hnode⟩
    · cases h
    · cases h
  · rintro ⟨hcheck, hslash, loc, hwalk, hnode⟩
    simp only [hcheck, hwalk, bind, Except.bind, hnode, hslash, Bool.false_eq_true, ↓reduceIte]

theorem read_write {contents : ByteArray} (h : t.write path contents = .ok t') :
    t'.read path = .ok contents := by
  have hkeeps := keeps_write h
  obtain ⟨above, name, loc, hnames, hcheck, hslash, hwalk, hdir, ⟨hdot, hup, hlong⟩, hnode, rfl⟩ :=
    write_eq_ok h
  have hfile : (t.put (name :: loc) (.file contents)).node? (name :: loc) = some (.file contents) := by
    rw [node?_put hnode, if_pos rfl]
  have hfull : (t.put (name :: loc) (.file contents)).walk (t.start path) (PathText.names path) =
      .ok (name :: loc) := by
    -- all above the file is walked as before, and the last step finds the file itself
    rw [hnames, walk_append, hkeeps.walk hwalk]
    show FileTree.walk _ loc [name] = _
    rw [walk, hkeeps.directory loc hdir]
    dsimp only
    rw [if_neg hdot, if_neg hup, if_neg (Nat.not_lt.mpr hlong), hfile]
    rfl
  rw [read_eq_ok_iff, hkeeps.start]
  exact ⟨hcheck, hslash, name :: loc, hfull, hfile⟩

/-- A file that can be read is read the same as long as its place is not touched. -/
theorem Keeps.read {contents : ByteArray} (h : Keeps P t t') (hplace : ¬ P (t.place path))
    (hread : t.read path = .ok contents) : t'.read path = .ok contents := by
  rw [read_eq_ok_iff] at hread ⊢
  obtain ⟨hcheck, hslash, loc, hwalk, hfile⟩ := hread
  rw [FileTree.place, ← eq_follow_of_walk hwalk] at hplace
  rw [h.start]
  exact ⟨hcheck, hslash, loc, h.walk hwalk, (h.file loc hplace contents).mpr hfile⟩

/-! ### Writing files -/

section Files
variable {out : String} {f : OutputFile} {files : List OutputFile}

/-- Writes one file below a directory of the tree. -/
def writeFile (t : FileTree) (out : String) (f : OutputFile) : Except CompileError Unit × FileTree :=
  (Disk.writeFile out f : StateM FileTree (Except CompileError Unit)).run t

/-- Writes files below a directory of the tree, up to the first that cannot be written. -/
def writeFiles (t : FileTree) (out : String) (files : List OutputFile) :
    Except CompileError Unit × FileTree :=
  (Disk.writeFiles out files : StateM FileTree (Except CompileError Unit)).run t

theorem run_bind_of_run {α β : Type} {a : StateM FileTree α} {k : α → StateM FileTree β} {x : α}
    (h : a.run t = (x, t')) : (a >>= k).run t = (k x).run t' := by
  rw [StateT.run_bind, h]
  rfl

theorem run_makeDirectories (t : FileTree) (path : String) :
    (Disk.makeDirectories path : StateM FileTree (Except FileFault Unit)).run t =
      t.makeDirectories path := rfl

theorem run_writeText (t : FileTree) (path text : String) :
    (Disk.writeText path text : StateM FileTree (Except FileFault Unit)).run t =
      match t.write path text.toUTF8 with
      | .ok t' => (.ok (), t')
      | .error fault => (.error fault, t) := rfl

/-- A file was written once the directories above it were there. -/
theorem writeFile_eq_ok (h : t.writeFile out f = (.ok (), t')) :
    ∃ t₁, t.makeDirectories ((parent? (join out f.path)).getD "") = (.ok (), t₁) ∧
      t₁.write (join out f.path) f.contents.toUTF8 = .ok t' := by
  rw [writeFile, Disk.writeFile] at h
  rcases hmake : t.makeDirectories ((parent? (join out f.path)).getD "") with ⟨made, t₁⟩
  rw [run_bind_of_run ((run_makeDirectories t _).trans hmake)] at h
  cases made with
  | error fault => cases h
  | ok u =>
    dsimp only at h
    have hrun := run_writeText t₁ (join out f.path) f.contents
    cases hwrite : t₁.write (join out f.path) f.contents.toUTF8 with
    | error fault =>
      rw [hwrite] at hrun
      rw [run_bind_of_run hrun] at h
      cases h
    | ok t₂ =>
      rw [hwrite] at hrun
      rw [run_bind_of_run hrun] at h
      cases h
      exact ⟨t₁, rfl, hwrite⟩

theorem writeFiles_cons_eq_ok (h : t.writeFiles out (f :: files) = (.ok (), t')) :
    ∃ t₁, t.writeFile out f = (.ok (), t₁) ∧ t₁.writeFiles out files = (.ok (), t') := by
  rw [writeFiles, Disk.writeFiles] at h
  rcases hfile : t.writeFile out f with ⟨written, t₁⟩
  rw [run_bind_of_run hfile] at h
  cases written with
  | error e => cases h
  | ok u => exact ⟨t₁, rfl, h⟩

/-- A file that was written can be read, and no other file was touched. -/
theorem keeps_writeFile (h : t.writeFile out f = (.ok (), t')) :
    t'.read (join out f.path) = .ok f.contents.toUTF8 ∧
      Keeps (· = t.place (join out f.path)) t t' := by
  obtain ⟨t₁, hmake, hwrite⟩ := writeFile_eq_ok h
  have hkeeps := keeps_makeDirectories t ((parent? (join out f.path)).getD "")
  rw [hmake] at hkeeps
  refine ⟨read_write hwrite, (hkeeps.trans (keeps_write hwrite)).mono fun loc hloc => ?_⟩
  rw [← hkeeps.place]
  exact hloc.resolve_left id

theorem keeps_writeFiles (h : t.writeFiles out files = (.ok (), t')) :
    Keeps (fun loc => ∃ f ∈ files, loc = t.place (join out f.path)) t t' := by
  induction files generalizing t with
  | nil => cases h; exact .refl _
  | cons f files ih =>
    obtain ⟨t₁, hfile, hrest⟩ := writeFiles_cons_eq_ok h
    have hfirst := (keeps_writeFile hfile).2
    refine (hfirst.trans (ih hrest)).mono fun loc hloc => ?_
    rcases hloc with rfl | ⟨f', hf', rfl⟩
    · exact ⟨f, List.mem_cons_self, rfl⟩
    · exact ⟨f', List.mem_cons_of_mem f hf', hfirst.place _⟩

/-- Each place holds the last file that was written to it. -/
theorem read_writeFiles {before after : List OutputFile}
    (h : t.writeFiles out (before ++ f :: after) = (.ok (), t'))
    (hlast : ∀ f' ∈ after, t.place (join out f'.path) ≠ t.place (join out f.path)) :
    t'.read (join out f.path) = .ok f.contents.toUTF8 := by
  induction before generalizing t with
  | nil =>
    obtain ⟨t₁, hfile, hrest⟩ := writeFiles_cons_eq_ok h
    obtain ⟨hread, hfirst⟩ := keeps_writeFile hfile
    refine (keeps_writeFiles hrest).read ?_ hread
    rintro ⟨f', hf', heq⟩
    rw [hfirst.place, hfirst.place] at heq
    exact hlast f' hf' heq.symm
  | cons f₀ before ih =>
    obtain ⟨t₁, hfile, hrest⟩ := writeFiles_cons_eq_ok h
    refine ih hrest fun f' hf' => ?_
    rw [(keeps_writeFile hfile).2.place, (keeps_writeFile hfile).2.place]
    exact hlast f' hf'

end Files

end FileTree

end TypeLang
