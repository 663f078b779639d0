import WikiPress.Proofs.Files.SameLocation

/-!
# WikiPress.Proofs.Files.Entries

The entry of a directory a path leads to, which may be a link.

Design points:

* A path that leads to a node leads to an entry first, which is that node or a link
  (`FileSystem.entry_of_find`).
* Names behind the path of a directory are an entry's if all but the last are directories on the
  way (`At.find_behind_iff`). Nothing is said of links there, since none is followed. So the
  directory the entry is in is one that its own path leads to as well (`At.around`).
-/

namespace WikiPress.Files

open WikiPress.Text (segmentsOf joinSegments)

/-! ## The last step -/

/-- What a walk ends at is at the place it ends at. -/
theorem lookUp_of_walk {root : Node} {follow : Bool} {links : Nat} {place last : Place}
    {node found : Node} {steps : List Step} (hnode : lookUp root place = some node)
    (h : walk root follow links place node steps = .ok (.node last found)) :
    lookUp root last = some found := by
  fun_induction walk root follow links place node steps with
  | case1 links place node =>
      cases h
      exact hnode
  | case2 links place node rest hdir ih => exact ih hnode h
  | case4 links place node rest hdir above habove ih => exact ih habove h
  | case10 links place name rest entries hname target hfind hlast =>
      cases h
      rw [lookUp_cons hnode, hfind]
  | case12 place name rest entries hname target hfind _ links habsolute ih => exact ih rfl h
  | case13 place name rest entries hname target hfind _ links habsolute ih => exact ih hnode h
  | case14 links place name rest entries hname inner hlink hfind ih =>
      exact ih (by rw [lookUp_cons hnode, hfind]) h
  | case3 | case5 | case6 | case7 | case8 | case9 | case11 | case15 => cases h

/-- A walk that follows no link in its last step ends where one that does ends, or at a link. -/
theorem entry_of_walk {root : Node} {links : Nat} {place last : Place} {node found : Node}
    {steps : List Step} (h : walk root true links place node steps = .ok (.node last found)) :
    walk root false links place node steps = .ok (.node last found)
      ∨ ∃ entry target, walk root false links place node steps
        = .ok (.node entry (.link target)) := by
  fun_induction walk root true links place node steps with
  | case1 => exact .inl (by rw [walk]; exact h)
  | case2 links place node rest hdir ih =>
      rw [walk, if_pos hdir]
      exact ih h
  | case4 links place node rest hdir above habove ih =>
      simp only [walk, if_pos hdir, habove]
      exact ih h
  | case10 =>
      next hlast =>
        exact absurd hlast.2 (by decide)
  | case12 place name rest entries hname target hfind _ links habsolute ih =>
      by_cases hrest : rest = []
      · exact .inr ⟨name :: place, target, by simp [walk, hfind, if_neg hname, hrest]⟩
      · simp only [walk, hfind, if_neg hname, hrest, false_and, if_false, habsolute, if_true]
        exact ih h
  | case13 place name rest entries hname target hfind _ links habsolute ih =>
      by_cases hrest : rest = []
      · exact .inr ⟨name :: place, target, by simp [walk, hfind, if_neg hname, hrest]⟩
      · simp only [walk, hfind, if_neg hname, hrest, false_and, if_false, if_neg habsolute]
        exact ih h
  | case14 links place name rest entries hname inner hlink hfind ih =>
      cases inner with
      | link target => exact absurd rfl (hlink target)
      | file _ | directory _ =>
          simp only [walk, hfind, if_neg hname]
          exact ih h
  | case3 | case5 | case6 | case7 | case8 | case9 | case11 | case15 => cases h

namespace FileSystem

variable {fs : FileSystem} {path : String} {last : Place} {found : Node}

theorem lookUp_of_find {follow : Bool} (h : fs.find path follow = .ok (.node last found)) :
    lookUp fs.root last = some found := by
  obtain ⟨-, node, hnode, hwalk⟩ := walkFrom_eq_ok h
  exact lookUp_of_walk hnode hwalk

/-- A path that leads to a node leads to the entry with that node, or to a link. -/
theorem entry_of_find (h : fs.find path true = .ok (.node last found)) :
    fs.find path false = .ok (.node last found)
      ∨ ∃ entry target, fs.find path false = .ok (.node entry (.link target)) := by
  obtain ⟨start, hwalk, hfind⟩ := exists_find_eq h
  rw [hfind]
  exact entry_of_walk hwalk

theorem has_iff :
    fs.has path = true ↔ ∃ last found, fs.find path true = .ok (.node last found) := by
  rw [exists_comm]
  simp only [← node_eq_ok_iff, FileSystem.has]
  cases fs.node path <;> simp [Except.toOption]

/-- What is there has an entry. -/
theorem exists_entry (h : fs.has path = true) :
    ∃ entry node, fs.find path false = .ok (.node entry node) := by
  obtain ⟨last, found, hfollowed⟩ := has_iff.1 h
  rcases entry_of_find hfollowed with hfind | ⟨entry, target, hfind⟩
  · exact ⟨last, found, hfind⟩
  · exact ⟨entry, .link target, hfind⟩

end FileSystem

/-! ## What can be a path -/

/-- What a path with a name at its end is joined to can be a path. -/
theorem usable_of_join {directory name : String} (hdirectory : directory ≠ "")
    (hname : ProperName name) (h : Usable (join directory name)) : Usable directory := by
  obtain ⟨front, hjoin, hfront⟩ := toList_join hdirectory hname
  refine ⟨?_, by simpa using hdirectory⟩
  have hnul := h.1
  rw [hjoin] at hnul
  rcases hfront with hfront | hfront <;> simp_all

/-- A name at the end of a path can be a name if the path can be one. -/
theorem nul_not_mem_of_into {path name : String} {front : List Step} (husable : Usable path)
    (hsteps : stepsOf path = front ++ [.into name]) : '\x00' ∉ name.toList := by
  obtain ⟨outer, hsegments, -, -⟩ := segmentsOf_of_into hsteps
  have hsuffix : name.toList <:+ path.toList := by
    rw [← joinSegments_segmentsOf path.toList, hsegments]
    by_cases houter : outer = []
    · subst houter
      simp [joinSegments]
    · rw [joinSegments_concat houter]
      exact List.suffix_append_of_suffix (List.suffix_cons _ _)
  have hnul := husable.1
  intro hmem
  simp [hsuffix.mem hmem] at hnul

/-! ## Names behind a directory -/

/-- Where names lead, all but the last being those of directories. -/
theorem walk_names_iff {root : Node} {links : Nat} {place last : Place} {node found : Node}
    (names : List String) {name : String} {inside : List (String × Node)}
    (hinside : Node.at? names node = some (.directory inside)) :
    walk root false links place node ((names ++ [name]).map .into) = .ok (.node last found)
      ↔ (∀ other ∈ names ++ [name], ¬ nameLimit < other.utf8ByteSize)
        ∧ last = name :: (names.reverse ++ place) ∧ Keyed.find? name inside = some found := by
  induction names generalizing place node with
  | nil =>
      obtain rfl := Option.some.inj hinside
      by_cases hlong : nameLimit < name.utf8ByteSize
      · simp [walk, hlong]
      cases hfind : Keyed.find? name inside with
      | none => simp [walk, hlong, hfind]
      | some inner =>
          have hshort : ∀ other ∈ [] ++ [name], ¬ nameLimit < other.utf8ByteSize := by
            simpa using hlong
          have hwalk : walk root false links place (.directory inside) (([] ++ [name]).map .into)
              = .ok (.node (name :: place) inner) := by
            cases inner <;> simp [walk, hlong, hfind]
          rw [hwalk, and_iff_right hshort]
          simp [eq_comm]
  | cons first rest ih =>
      cases node with
      | directory entries =>
          obtain ⟨inner, hfind, hrest⟩ := Option.bind_eq_some_iff.1 hinside
          have hplain : ∀ target, inner ≠ .link target := by
            rintro target rfl
            cases rest <;> cases hrest
          have hstep : walk root false links place (.directory entries)
              (((first :: rest) ++ [name]).map .into)
            = if nameLimit < first.utf8ByteSize then .error .nameTooLong
              else walk root false links (first :: place) inner ((rest ++ [name]).map .into) := by
            rw [List.cons_append, List.map_cons, walk]
            cases inner with
            | link target => exact absurd rfl (hplain target)
            | file _ | directory _ => simp only [hfind]
          rw [hstep, List.cons_append, List.forall_mem_cons]
          by_cases hlong : nameLimit < first.utf8ByteSize
          · simp [hlong]
          · rw [if_neg hlong, ih hrest]
            simp [hlong]
      | file _ | link _ => cases hinside

/-- Names behind the path of a directory. -/
theorem At.find_behind_iff {fs : FileSystem} {directory path name : String} {base last : Place}
    {left : Nat} {names : List String} {contents inside : List (String × Node)} {found : Node}
    (hat : At fs directory base left) (hcontents : lookUp fs.root base = some (.directory contents))
    (hbehind : Behind directory (names ++ [name]) path)
    (hinside : Node.at? names (.directory contents) = some (.directory inside)) :
    fs.find path false = .ok (.node last found)
      ↔ Usable path ∧ (∀ other ∈ names ++ [name], ¬ nameLimit < other.utf8ByteSize)
        ∧ last = name :: (names.reverse ++ base) ∧ Keyed.find? name inside = some found := by
  have hfind : Usable path → fs.find path false
      = walk fs.root false left base (.directory contents) ((names ++ [name]).map .into) := by
    intro husable
    rw [FileSystem.find, hbehind.steps, hbehind.plain,
      walkFrom_append husable (hbehind.start fs ▸ hat.leads) hcontents (by simp)]
  constructor
  · intro h
    have husable : Usable path := usable_of_walkFrom h
    rw [hfind husable, walk_names_iff names hinside] at h
    exact ⟨husable, h⟩
  · rintro ⟨husable, h⟩
    rw [hfind husable, walk_names_iff names hinside]
    exact h

/-- The directory that a name at the end of a path is in, which is found by names too. -/
theorem At.around {fs : FileSystem} {outer directory name : String} {base : Place} {left : Nat}
    {names : List String} {contents inside : List (String × Node)} (hat : At fs outer base left)
    (hcontents : lookUp fs.root base = some (.directory contents)) (hdirectory : directory ≠ "")
    (hname : ProperName name) (hbehind : Behind outer (names ++ [name]) (Files.join directory name))
    (hinside : Node.at? names (.directory contents) = some (.directory inside))
    (husable : Usable (Files.join directory name))
    (hshort : ∀ other ∈ names, ¬ nameLimit < other.utf8ByteSize) :
    ∃ left', At fs directory (names.reverse ++ base) left'
      ∧ lookUp fs.root (names.reverse ++ base) = some (.directory inside) := by
  -- no link is among the names, since they lead to a directory
  obtain ⟨⟨left', hnames⟩, hplace⟩ :=
    leads_of_walk hcontents (walk_names names hshort hinside (by simp))
  have hplain : plainSteps directory = plainSteps outer ++ names.map .into := by
    have hsteps := hbehind.plain
    rw [plainSteps_join hdirectory hname, List.map_append, ← List.append_assoc] at hsteps
    exact (List.append_inj' hsteps rfl).1
  have hstart := (startOf_join fs hdirectory hname).symm.trans (hbehind.start fs)
  refine ⟨left', ⟨usable_of_join hdirectory hname husable, ?_⟩, hplace⟩
  rw [hstart, hplain]
  exact hat.leads.append hnames

/-- What is found and is no directory has a name at the end of its path, which is one a file can
have. -/
theorem FileSystem.allowed_of_find {fs : FileSystem} {path : String} {last : Place} {found : Node}
    (h : fs.find path false = .ok (.node last found)) (hplain : found.isDirectory = false) :
    ∃ front name around, stepsOf path = front ++ [.into name] ∧ last = name :: around
      ∧ Allowed name ∧ DirectoryAt fs.root around := by
  obtain ⟨front, name, around, left, hsteps, rfl, hleads, inside, hinside⟩ :=
    endsInto_of_find h hplain
  have husable : Usable path := usable_of_walkFrom h
  obtain ⟨-, -, hproper, -⟩ := segmentsOf_of_into hsteps
  have hwalk : walk fs.root false left around (.directory inside) (([] ++ [name]).map .into)
      = .ok (.node (name :: around) found) := by
    rw [← h, FileSystem.find, hsteps, walkFrom_append husable hleads hinside (by simp)]
    rfl
  obtain ⟨hshort, -⟩ := (walk_names_iff [] rfl).1 hwalk
  exact ⟨front, name, around, hsteps, rfl,
    ⟨hproper, nul_not_mem_of_into husable hsteps, hshort name (by simp)⟩, inside, hinside⟩

end WikiPress.Files
