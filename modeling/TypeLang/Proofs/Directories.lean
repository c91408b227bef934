import TypeLang.Proofs.Writing

/-! # Making directories again

The second time, a run sees the directories and files of the first. `Grows t t'` is what a run does to
the kinds of things: nothing goes away, and what was a directory or a file still is one. A path whose
directories were made before is found to be there in every tree that has grown since, and where making
them failed, it fails in the same way (`makeFrom_again`).

The one thing that might differ is what is said about a file in the way: that depends on whether a
directory was made before it. But nothing stands below a directory that was just made, since the tree is
one (`IsTree`) and no name leads upwards. -/

namespace TypeLang

open PathText

namespace PathText

/-! ### The names of a parent -/

theorem names_reverse_cons_slash (cs : List Char) :
    names (String.ofList ('/' :: cs).reverse) = names (String.ofList cs.reverse) := by
  have hchars : String.ofList ('/' :: cs).reverse = String.ofList cs.reverse ++ "/" ++ "" := by
    rw [← String.toList_inj]
    simp
  rw [hchars, names_append_slash, show names "" = [] from by decide, List.append_nil]

/-- What stands after a slash only adds names. -/
theorem names_reverse_append_slash (as cs : List Char) :
    names (String.ofList cs.reverse) <+: names (String.ofList (as ++ '/' :: cs).reverse) := by
  have hchars : String.ofList (as ++ '/' :: cs).reverse =
      String.ofList cs.reverse ++ "/" ++ String.ofList as.reverse := by
    rw [← String.toList_inj]
    simp
  rw [hchars, names_append_slash]
  exact List.prefix_append _ _

theorem names_dropIdle (cs : List Char) :
    names (String.ofList (dropIdle cs).reverse) <+: names (String.ofList cs.reverse) := by
  fun_induction dropIdle cs with
  | case1 c cs ih =>
    rw [names_reverse_cons_slash]
    exact ih
  | case2 cs ih =>
    rw [names_reverse_cons_slash] at ih
    exact ih.trans (names_reverse_append_slash ['.'] cs)
  | case3 cs => exact List.prefix_rfl

theorem names_dropWhile (cs : List Char) :
    names (String.ofList (cs.dropWhile (· != '/')).reverse) <+: names (String.ofList cs.reverse) := by
  cases hcs : cs.dropWhile (· != '/') with
  | nil => exact List.nil_prefix
  | cons c rest =>
    have hc : c = '/' := by
      have hhead := List.head?_dropWhile_not (· != '/') cs
      rw [hcs] at hhead
      simpa using hhead
    subst hc
    rw [names_reverse_cons_slash, ← List.takeWhile_append_dropWhile (p := (· != '/')) (l := cs), hcs]
    exact names_reverse_append_slash _ rest

theorem names_parent? {path parent : String} (h : parent? path = some parent) :
    names parent <+: names path := by
  have hpath : names path = names (String.ofList path.toList.reverse.reverse) := by
    rw [List.reverse_reverse, String.ofList_toList]
  rw [hpath]
  refine List.IsPrefix.trans ?_ (names_dropIdle path.toList.reverse)
  rw [parent?] at h
  split at h
  · cases h
  · cases h
  · cases h
    exact (names_dropIdle _).trans (names_dropWhile _)

theorem not_mem_names_parent {path : String} (h : ".." ∉ names path) :
    ".." ∉ names ((parent? path).getD "") := by
  cases hparent : parent? path with
  | none => exact List.not_mem_nil
  | some parent => exact fun hmem => h ((names_parent? hparent).subset hmem)

end PathText

namespace FileTree
variable {t t' t'' u : FileTree} {loc loc' : Location} {names : List String} {path : String}

/-! ### Trees -/

/-- What stands at a place stands in a directory. -/
def IsTree (t : FileTree) : Prop :=
  ∀ name loc, (t.node? (name :: loc)).isSome = true → t.node? loc = some .directory

/-- Nothing goes away, and directories and files stay what they are. -/
structure Grows (t t' : FileTree) : Prop where
  home : t'.home = t.home
  directory : ∀ loc, t.node? loc = some .directory → t'.node? loc = some .directory
  file : ∀ loc c, t.node? loc = some (.file c) → ∃ c', t'.node? loc = some (.file c')

namespace Grows

theorem refl (t : FileTree) : Grows t t := ⟨rfl, fun _ h => h, fun _ c h => ⟨c, h⟩⟩

theorem trans (h : Grows t t') (h' : Grows t' t'') : Grows t t'' where
  home := h'.home.trans h.home
  directory loc hd := h'.directory loc (h.directory loc hd)
  file loc c hf := by
    obtain ⟨c', hc'⟩ := h.file loc c hf
    exact h'.file loc c' hc'

theorem keeps (h : Grows t t') : Keeps (fun _ => True) t t' where
  home := h.home
  directory := h.directory
  isSome loc hs := by
    cases hnode : t.node? loc with
    | none => rw [hnode] at hs; cases hs
    | some node =>
      cases node with
      | directory => rw [h.directory loc hnode]; rfl
      | file c =>
        obtain ⟨c', hc'⟩ := h.file loc c hnode
        rw [hc']
        rfl
  file loc hloc := absurd trivial hloc

end Grows

theorem grows_put_directory (h : t.node? loc = none) : Grows t (t.put loc .directory) := by
  have hkeeps := keeps_put_directory h
  exact ⟨hkeeps.home, hkeeps.directory, fun l c hc => ⟨c, (hkeeps.file l id c).mpr hc⟩⟩

theorem grows_put_file (h : t.node? loc ≠ some .directory) (contents : ByteArray) :
    Grows t (t.put loc (.file contents)) := by
  refine ⟨rfl, (keeps_put h).directory, fun l c hc => ?_⟩
  rw [node?_put h]
  split
  · exact ⟨contents, rfl⟩
  · exact ⟨c, hc⟩

theorem IsTree.put (ht : t.IsTree) (hloc : t.node? loc = some .directory) {name : String}
    (h : t.node? (name :: loc) ≠ some .directory) (node : Node) : (t.put (name :: loc) node).IsTree := by
  intro name' loc' hs
  rw [node?_put h] at hs ⊢
  split at hs
  · next heq =>
    obtain ⟨rfl, rfl⟩ := List.cons.inj heq
    rw [if_neg (List.cons_ne_self _ _).symm]
    exact hloc
  · have hdir := ht name' loc' hs
    rw [if_neg]
    · exact hdir
    · rintro rfl
      exact h hdir

/-- A tree has nothing below a place where nothing stands. -/
theorem IsTree.node?_eq_none (ht : t.IsTree) (h : t.node? loc = none) (name : String) :
    t.node? (name :: loc) = none := by
  rw [← Option.not_isSome_iff_eq_none]
  intro hs
  rw [ht name loc hs] at h
  cases h

/-! ### Making directories again -/

theorem grows_makeFrom (t : FileTree) (made : Bool) (loc : Location) (names : List String) :
    Grows t (t.makeFrom made loc names).2 := by
  fun_induction makeFrom t made loc names with
  | case1 => exact .refl _
  | case2 t made loc names ih => exact ih
  | case3 t made loc names _ ih => exact ih
  | case4 => exact .refl _
  | case5 t made loc name names _ _ _ _ ih => exact ih
  | case6 => exact .refl _
  | case7 t made loc name names _ _ _ hnone ih => exact (grows_put_directory hnone).trans ih

theorem IsTree.makeFrom (ht : t.IsTree) (made : Bool) (hup : ".." ∉ names)
    (hloc : t.node? loc = some .directory) : (t.makeFrom made loc names).2.IsTree := by
  fun_induction FileTree.makeFrom t made loc names with
  | case1 => exact ht
  | case2 t made loc names ih => exact ih ht (List.not_mem_of_not_mem_cons hup) hloc
  | case3 t made loc names _ ih => exact absurd List.mem_cons_self hup
  | case4 => exact ht
  | case5 t made loc name names _ _ _ hdir ih => exact ih ht (List.not_mem_of_not_mem_cons hup) hdir
  | case6 => exact ht
  | case7 t made loc name names _ _ _ hnone ih =>
    have hne : t.node? (name :: loc) ≠ some .directory := by rw [hnone]; simp
    refine ih (ht.put hloc hne _) (List.not_mem_of_not_mem_cons hup) ?_
    rw [node?_put hne, if_pos rfl]

/-- Making the same directories in a tree that has grown since has the same outcome, and there is nothing
left to make. -/
theorem makeFrom_again {made made' : Bool} (ht : t.IsTree) (hup : ".." ∉ names)
    (hloc : t.node? loc = some .directory)
    (hmade : made' = made ∨ ∀ name, t.node? (name :: loc) = none)
    (hu : Grows (t.makeFrom made loc names).2 u) :
    u.makeFrom made' loc names = ((t.makeFrom made loc names).1, u) := by
  fun_induction FileTree.makeFrom t made loc names with
  | case1 => rfl
  | case2 t made loc names ih =>
    rw [FileTree.makeFrom, if_pos rfl]
    exact ih ht (List.not_mem_of_not_mem_cons hup) hloc hmade hu
  | case3 t made loc names _ ih => exact absurd List.mem_cons_self hup
  | case4 t made loc name names hdot hdots hlong =>
    rw [FileTree.makeFrom, if_neg hdot, if_neg hdots, if_pos hlong]
  | case5 t made loc name names hdot hdots hlong hdir ih =>
    have hdir' := ((grows_makeFrom t made (name :: loc) names).trans hu).directory _ hdir
    rw [FileTree.makeFrom, if_neg hdot, if_neg hdots, if_neg hlong, hdir']
    refine ih ht (List.not_mem_of_not_mem_cons hup) hdir (.inl ?_) hu
    refine hmade.resolve_right fun hnone => ?_
    rw [hnone name] at hdir
    cases hdir
  | case6 t made loc name names hdot hdots hlong c hfile =>
    obtain ⟨c', hfile'⟩ := hu.file _ c hfile
    have hsame : made' = made := hmade.resolve_right fun hnone => by
      rw [hnone name] at hfile
      cases hfile
    rw [FileTree.makeFrom, if_neg hdot, if_neg hdots, if_neg hlong, hfile', hsame]
  | case7 t made loc name names hdot hdots hlong hnone ih =>
    have hne : t.node? (name :: loc) ≠ some .directory := by rw [hnone]; simp
    have hput : (t.put (name :: loc) .directory).node? (name :: loc) = some .directory := by
      rw [node?_put hne, if_pos rfl]
    have hdir' := ((grows_makeFrom _ true (name :: loc) names).trans hu).directory _ hput
    rw [FileTree.makeFrom, if_neg hdot, if_neg hdots, if_neg hlong, hdir']
    -- the directory is new, so nothing stands below it
    refine ih (ht.put hloc hne _) (List.not_mem_of_not_mem_cons hup) hput (.inr fun name' => ?_) hu
    rw [node?_put hne, if_neg (List.cons_ne_self _ _), ht.node?_eq_none hnone]

theorem node?_start (t : FileTree) (path : String) : t.node? (t.start path) = some .directory := by
  have hsuffix : (t.start path).isSuffixOf t.home = true := by
    rw [start]
    split
    · exact List.isSuffixOf_iff_suffix.mpr List.nil_suffix
    · exact List.isSuffixOf_iff_suffix.mpr List.suffix_rfl
  rw [node?, if_pos hsuffix]

theorem grows_makeDirectories (t : FileTree) (path : String) :
    Grows t (t.makeDirectories path).2 := by
  unfold makeDirectories
  split
  · exact .refl t
  · split
    · exact .refl t
    · exact grows_makeFrom t _ _ _

theorem IsTree.makeDirectories (ht : t.IsTree) (hup : ".." ∉ PathText.names path) :
    (t.makeDirectories path).2.IsTree := by
  unfold FileTree.makeDirectories
  split
  · exact ht
  · split
    · exact ht
    · exact ht.makeFrom _ hup (node?_start t path)

theorem makeDirectories_again (ht : t.IsTree) (hup : ".." ∉ PathText.names path)
    (hu : Grows (t.makeDirectories path).2 u) :
    u.makeDirectories path = ((t.makeDirectories path).1, u) := by
  have hstart : u.start path = t.start path := ((grows_makeDirectories t path).trans hu).keeps.start path
  unfold makeDirectories at hu ⊢
  split
  · rfl
  · next hne =>
    rw [if_neg hne] at hu
    cases hcheck : checkPath path with
    | error fault => rfl
    | ok x =>
      rw [hcheck] at hu
      dsimp only at hu ⊢
      rw [hstart]
      exact makeFrom_again ht hup (node?_start t path) (.inl rfl) hu

end FileTree

end TypeLang
