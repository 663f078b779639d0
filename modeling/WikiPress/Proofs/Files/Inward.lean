import WikiPress.Proofs.Files.LinkFree
import WikiPress.Proofs.Files.SameLocation

/-!
# WikiPress.Proofs.Files.Inward

Paths that stay below the directory they are joined to.

Design points:

* Whether a path stays below is read off its steps (`Inward`): it goes up no further than it went
  down. It may go up, so it need not be a row of names.
* The directories around such a path are below the directory as well, or they are on the way to
  it (`Below.of_mem_ancestors`).
* A walk along it comes to the directory first (`walkFrom_of_append`), perhaps through links. If
  there is none in the directory, it ends there or below (`walk_inward`).
-/

namespace WikiPress.Files

open WikiPress.Text (segmentsOf)

/-! ## Paths that stay below a directory -/

/-- Whether steps go up no further than they went down, from so many names below their start. -/
def staysBelow : Nat → List Step → Bool
  | _, [] => true
  | depth, .stay :: rest => staysBelow depth rest
  | 0, .up :: _ => false
  | depth + 1, .up :: rest => staysBelow depth rest
  | depth, .into _ :: rest => staysBelow (depth + 1) rest

/-- The first of such steps are such steps. -/
theorem staysBelow_of_append {depth : Nat} {steps more : List Step}
    (h : staysBelow depth (steps ++ more) = true) : staysBelow depth steps = true := by
  fun_induction staysBelow depth steps with
  | case1 => rfl
  | case2 depth rest ih => exact ih h
  | case3 rest => cases h
  | case4 depth rest ih => exact ih h
  | case5 depth name rest ih => exact ih h

/-- Names at the end lead further down. -/
theorem staysBelow_append_into {depth : Nat} {steps : List Step} (name : String) :
    staysBelow depth (steps ++ [.into name]) = staysBelow depth steps := by
  fun_induction staysBelow depth steps with
  | case1 => rfl
  | case2 depth rest ih => exact ih
  | case3 rest => rfl
  | case4 depth rest ih => exact ih
  | case5 depth name rest ih => exact ih

/-- Whether a path stays below any directory that it is joined to. -/
structure Inward (path : String) : Prop where
  relative : isAbsolute path = false
  below : staysBelow 0 (plainSteps path) = true

instance (path : String) : Decidable (Inward path) :=
  decidable_of_iff (isAbsolute path = false ∧ staysBelow 0 (plainSteps path) = true)
    ⟨fun ⟨hrelative, hbelow⟩ => ⟨hrelative, hbelow⟩, fun h => ⟨h.relative, h.below⟩⟩

example : Inward "7" ∧ Inward "a/../b/." ∧ ¬ Inward "a/../../b" ∧ ¬ Inward "/a" := by decide

/-- Whether a path leads to a directory and stays below it from there. -/
structure Below (directory path : String) : Prop where
  start : ∀ fs : FileSystem, fs.startOf path = fs.startOf directory
  inner : ∃ inner, plainSteps path = plainSteps directory ++ inner ∧ staysBelow 0 inner = true

/-- The steps of a relative path are taken behind those of the directory, be there any or not. -/
theorem plainSteps_joined (directory : String) {path : String}
    (hpath : isAbsolute path = false) :
    plainSteps (join directory path) = plainSteps directory ++ plainSteps path := by
  by_cases hdirectory : directory = ""
  · subst hdirectory
    have hempty : plainSteps "" = [] := by decide
    rw [empty_join, hempty, List.nil_append]
  · exact plainSteps_join_of_relative hdirectory hpath

theorem ProperName.plainSteps {name : String} (h : ProperName name) :
    plainSteps name = [.into name] := by
  rw [Files.plainSteps, segmentsOf_of_not_mem h.slash]
  simp [h.stepOf]

theorem below_join (directory : String) {path : String} (h : Inward path) :
    Below directory (join directory path) where
  start fs := startOf_join_of_relative fs directory h.relative
  inner := ⟨plainSteps path, plainSteps_joined directory h.relative, h.below⟩

namespace Below

variable {directory path name : String}

/-- A name behind a path that stays below the directory. -/
theorem join (h : Below directory path) (hname : ProperName name) :
    Below directory (Files.join path name) where
  start fs := (startOf_join_of_relative fs path hname.not_absolute).trans (h.start fs)
  inner := by
    obtain ⟨inner, hplain, hbelow⟩ := h.inner
    refine ⟨inner ++ [.into name], ?_, by rw [staysBelow_append_into, hbelow]⟩
    rw [plainSteps_joined path hname.not_absolute, hplain, hname.plainSteps, List.append_assoc]

/-- The steps to a name. -/
theorem stepsOf_join (h : Below directory path) (hname : ProperName name) :
    ∃ inner, stepsOf (Files.join path name) = plainSteps directory ++ inner ∧ inner ≠ []
      ∧ staysBelow 0 inner = true := by
  obtain ⟨inner, hplain, hbelow⟩ := h.inner
  have hlast : name.toList.getLast? ≠ some '/' := by simpa using hname.getLast?_append ""
  have hsteps : stepsOf name = [.into name] := by
    rw [stepsOf, if_neg hlast, List.append_nil]
    exact hname.plainSteps
  refine ⟨inner ++ [.into name], ?_, by simp, by rw [staysBelow_append_into, hbelow]⟩
  rw [stepsOf_join_of_relative path hname.not_absolute hname.nonempty, hsteps, hplain,
    List.append_assoc]

end Below

/-! ## Directories around a path -/

/-- The directory a path lies in has the first of the path's steps. -/
theorem steps_of_parent {path outer : String} (h : parent path = some outer) (houter : outer ≠ "") :
    isAbsolute outer = isAbsolute path ∧ plainSteps outer <+: plainSteps path := by
  obtain ⟨silent, hall, -⟩ := exists_silent_append (segmentsOf path.toList).reverse
  unfold parent at h
  split at h
  · cases h
  · cases h
  · cases h
    exact absurd rfl houter
  next last rest hroot hmore hsegments =>
  cases h
  rw [reversedSegments] at hsegments
  have hnonempty : rest ≠ [] := by
    rintro rfl
    exact hmore rfl
  obtain ⟨silent', hrest', -⟩ := exists_silent_append rest
  -- the segments of the directory, those that say nothing, the last one, and silent ones again
  have hpath : segmentsOf path.toList
      = (trimSegments rest).reverse ++ (silent'.reverse ++ [last] ++ silent.reverse) := by
    have hreverse := congrArg List.reverse hall
    rw [List.reverse_reverse, hsegments, List.reverse_append, List.reverse_cons] at hreverse
    rw [hreverse, hrest', List.reverse_append]
    simp [← hrest']
  have htrimmed := trimSegments_ne_nil hnonempty
  have hslash : ∀ segment ∈ trimSegments rest, '/' ∉ segment := fun segment hmem =>
    slash_not_mem_of_mem_segmentsOf
      (hpath ▸ List.mem_append_left _ (List.mem_reverse.2 hmem))
  constructor
  · exact isAbsolute_ofReversedSegments htrimmed hslash _ (by simp) hpath
  · rw [plainSteps_ofReversedSegments htrimmed hslash, plainSteps, hpath, List.filterMap_append]
    exact List.prefix_append _ _

theorem steps_of_mem_ancestors {path outer : String} (h : outer ∈ ancestors path) :
    isAbsolute outer = isAbsolute path ∧ plainSteps outer <+: plainSteps path := by
  unfold ancestors at h
  generalize (segmentsOf path.toList).length = fuel at h
  induction fuel generalizing path with
  | zero => cases h
  | succ fuel ih =>
      rw [ancestors.go] at h
      split at h
      · cases h
      rcases List.mem_cons.1 h with rfl | hmore
      · exact ⟨rfl, List.prefix_rfl⟩
      split at hmore
      · next around hparent =>
          have haround : around ≠ "" := by
            rintro rfl
            cases fuel <;> cases hmore
          obtain ⟨habsolute, hprefix⟩ := ih hmore
          obtain ⟨habsolute', hprefix'⟩ := steps_of_parent hparent haround
          exact ⟨habsolute.trans habsolute', hprefix.trans hprefix'⟩
      · cases hmore

/-- The directories around a path that stays below a directory stay below it as well, or are on
the way to it. -/
theorem Below.of_mem_ancestors {directory path outer : String} (h : Below directory path)
    (houter : outer ∈ ancestors path) :
    Below directory outer ∨ (∀ fs : FileSystem, fs.startOf outer = fs.startOf directory)
      ∧ plainSteps outer <+: plainSteps directory := by
  obtain ⟨habsolute, hprefix⟩ := steps_of_mem_ancestors houter
  obtain ⟨inner, hplain, hbelow⟩ := h.inner
  have hstart : ∀ fs : FileSystem, fs.startOf outer = fs.startOf directory := by
    intro fs
    rw [← h.start fs, FileSystem.startOf, FileSystem.startOf, habsolute]
  rw [hplain] at hprefix
  rcases List.prefix_or_prefix_of_prefix hprefix (List.prefix_append _ _) with hshort | hlong
  · exact .inr ⟨hstart, hshort⟩
  · obtain ⟨first, hfirst⟩ := hlong
    rw [← hfirst, List.prefix_append_right_inj] at hprefix
    obtain ⟨more, rfl⟩ := hprefix
    exact .inl ⟨hstart, first, hfirst.symm, staysBelow_of_append hbelow⟩

/-! ## Walks that go on -/

/-- Where a walk ends, its first steps lead to a node. -/
theorem walk_of_append {root : Node} {follow : Bool} {links : Nat} {place : Place} {node : Node}
    {steps more : List Step} {found : Found} (hmore : more ≠ [])
    (h : walk root follow links place node (steps ++ more) = .ok found) :
    ∃ through inner, walk root true links place node steps = .ok (.node through inner) := by
  fun_induction walk root true links place node steps with
  | case1 links place node => exact ⟨place, node, rfl⟩
  | case2 links place node rest hdir ih =>
      rw [List.cons_append, walk, if_pos hdir] at h
      exact ih h
  | case4 links place node rest hdir above habove ih =>
      simp only [List.cons_append, walk, if_pos hdir, habove] at h
      exact ih h
  | case10 => next hrest => exact absurd hrest.2 (by decide)
  | case12 place name rest entries hname target hfind _ links habsolute ih =>
      simp only [List.cons_append, walk, hfind, if_neg hname, habsolute, if_true,
        ← List.append_assoc] at h
      rw [if_neg (by simp [hmore])] at h
      exact ih h
  | case13 place name rest entries hname target hfind _ links habsolute ih =>
      simp only [List.cons_append, walk, hfind, if_neg hname, if_neg habsolute,
        ← List.append_assoc] at h
      rw [if_neg (by simp [hmore])] at h
      exact ih h
  | case14 links place name rest entries hname inner hlink hfind ih =>
      cases inner with
      | link target => exact absurd rfl (hlink target)
      | file _ | directory _ =>
          simp only [List.cons_append, walk, hfind, if_neg hname] at h
          exact ih h
  -- the other walks fail, and so would one that goes on
  | case3 | case5 | case6 | case15 => simp_all [walk]
  | case7 links place name rest entries hname => simp [walk, hname] at h
  | case8 links place name entries hname hfind => simp [walk, hname, hfind, hmore] at h
  | case9 links place name rest entries hname hfind => simp [walk, hname, hfind, hmore] at h
  | case11 place name rest entries hname target hfind => simp [walk, hname, hfind, hmore] at h

/-- A step is taken from a directory. -/
theorem isDirectory_of_walk {root : Node} {follow : Bool} {links : Nat} {place : Place}
    {node : Node} {steps : List Step} {found : Found} (hsteps : steps ≠ [])
    (h : walk root follow links place node steps = .ok found) : node.isDirectory = true := by
  obtain ⟨step, rest, rfl⟩ := List.exists_cons_of_ne_nil hsteps
  cases node with
  | directory entries => rfl
  | file _ | link _ => cases step <;> simp [walk, Node.isDirectory] at h

/-- A walk along a path comes to a directory with its first steps and goes on from there. -/
theorem walkFrom_of_append {fs : FileSystem} {path : String} {follow : Bool}
    {steps more : List Step} {found : Found} (hmore : more ≠ [])
    (h : fs.walkFrom path follow (steps ++ more) = .ok found) :
    ∃ through mid entries, Leads fs.root linkLimit (fs.startOf path) steps through mid
      ∧ lookUp fs.root through = some (.directory entries)
      ∧ walk fs.root follow mid through (.directory entries) more = .ok found := by
  obtain ⟨-, node, hnode, hwalk⟩ := walkFrom_eq_ok h
  obtain ⟨through, inner, hfirst⟩ := walk_of_append hmore hwalk
  obtain ⟨⟨mid, hleads⟩, hinner⟩ := leads_of_walk hnode hfirst
  rw [walk_append hleads hnode hinner hmore] at hwalk
  obtain ⟨entries, rfl⟩ := Node.isDirectory_iff.1 (isDirectory_of_walk hmore hwalk)
  exact ⟨through, mid, entries, hleads, hinner, hwalk⟩

theorem linkFree_below {root top node : Node} {base place : Place}
    (htop : lookUp root base = some top) (hfree : top.LinkFree) (hbelow : base <:+ place)
    (hnode : lookUp root place = some node) : node.LinkFree := by
  obtain ⟨names, rfl⟩ := hbelow
  have hplace := lookUp_append root names.reverse base
  rw [List.reverse_reverse, hnode, htop] at hplace
  exact hfree.at? hplace.symm

/-- In a directory without links, steps that stay below it end there or below. -/
theorem walk_inward {root top : Node} {base : Place} (htop : lookUp root base = some top)
    (hfree : top.LinkFree) {follow : Bool} {links : Nat} {names : List String} {node : Node}
    {steps : List Step} {found : Found} (hnode : lookUp root (names ++ base) = some node)
    (hsteps : staysBelow names.length steps = true)
    (h : walk root follow links (names ++ base) node steps = .ok found) :
    base <:+ found.place := by
  have hplain : ∀ {place : Place} {entries : List (String × Node)} {name target : String},
      base <:+ place → lookUp root place = some (.directory entries) →
      Keyed.find? name entries ≠ some (.link target) := by
    intro place entries name target hbelow hentries hlink
    exact ((linkFree_below htop hfree hbelow hentries).find? hlink).not_link target rfl
  generalize hplace : names ++ base = place at hnode h
  fun_induction walk root follow links place node steps generalizing names with
  | case1 links place node =>
      cases h
      exact ⟨names, hplace⟩
  | case2 links place node rest hdir ih => exact ih hsteps hplace hnode h
  | case4 links place node rest hdir above habove ih =>
      cases names with
      | nil => cases hsteps
      | cons name names =>
          subst hplace
          exact ih hsteps rfl habove h
  | case8 links place name entries hname hfind =>
      cases h
      exact ⟨name :: names, congrArg (name :: ·) hplace⟩
  | case14 links place name rest entries hname inner hlink hfind ih =>
      have hinside : name :: names ++ base = name :: place := congrArg (name :: ·) hplace
      refine ih ?_ hinside (by rw [lookUp_cons hnode, hfind]) h
      exact hsteps
  -- what is below is no link
  | case10 | case11 =>
      next hfind _ => exact absurd hfind (hplain ⟨names, hplace⟩ hnode)
  | case12 _ _ _ _ _ target hfind | case13 _ _ _ _ _ target hfind =>
      exact absurd hfind (hplain ⟨names, hplace⟩ hnode)
  | case3 | case5 | case6 | case7 | case9 | case15 => cases h

end WikiPress.Files
