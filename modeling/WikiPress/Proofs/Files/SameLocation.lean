import WikiPress.Proofs.Files.Growth

/-!
# WikiPress.Proofs.Files.SameLocation

Paths that are written differently and name the same.

Design points:

* A path may name what is not there. So two paths name one location if they come to one place
  with their first steps and have the same steps left (`FileSystem.SameLocation`). Where such
  paths lead anywhere, they lead to the same (`SameLocation.node_eq`), since a walk depends on
  the links it may still follow only in whether it ends (`Leads.place_eq`).
* Two paths lead to one entry if they do so without a link being followed in the last step
  (`FileSystem.SameEntry`). Then they lie in one directory, and whatever is joined to their
  directories names one location (`SameEntry.sameLocation`).
-/

namespace WikiPress.Files

/-! ## One walk with different numbers of links -/

/-- Where steps lead does not depend on how many links may be followed. -/
theorem Leads.place_eq {root : Node} {links links' left left' : Nat} {place last last' : Place}
    {steps : List Step} (h : Leads root links place steps last left)
    (h' : Leads root links' place steps last' left') : last = last' := by
  induction h generalizing links' with
  | arrived =>
      cases h' with
      | arrived => rfl
  | stay _ _ ih =>
      cases h' with
      | stay _ hrest => exact ih hrest
  | up _ _ _ ih =>
      cases h' with
      | up _ _ hrest => exact ih hrest
  | into _ _ hinner hplain _ ih =>
      cases h' with
      | into _ _ _ _ hrest => exact ih hrest
      | link _ _ hlink _ => exact absurd (Option.some.inj (hinner.symm.trans hlink)) (hplain _)
  | link _ _ hlink _ ih =>
      cases h' with
      | into _ _ hinner hplain _ =>
          exact absurd (Option.some.inj (hinner.symm.trans hlink)) (hplain _)
      | link _ _ hlink' hrest =>
          cases Option.some.inj (hlink.symm.trans hlink')
          exact ih hrest

/-! ## One location -/

namespace FileSystem

variable {fs : FileSystem} {path other : String}

/-- Whether the first steps of a path lead to a place, with some steps left from there. -/
def Approaches (fs : FileSystem) (path : String) (place : Place) (rest : List Step) : Prop :=
  ∃ before left, stepsOf path = before ++ rest
    ∧ Leads fs.root linkLimit (fs.startOf path) before place left

/-- Whether two paths name one location, be it there or not. -/
def SameLocation (fs : FileSystem) (path other : String) : Prop :=
  ∃ place rest, fs.Approaches path place rest ∧ fs.Approaches other place rest

theorem SameLocation.refl (fs : FileSystem) (path : String) : fs.SameLocation path path :=
  have hstart : fs.Approaches path (fs.startOf path) (stepsOf path) :=
    ⟨[], linkLimit, rfl, .arrived⟩
  ⟨_, _, hstart, hstart⟩

theorem node_eq_ok_iff {node : Node} :
    fs.node path = .ok node ↔ ∃ place, fs.find path true = .ok (.node place node) := by
  unfold FileSystem.node
  cases fs.find path true with
  | error e => simp
  | ok found => cases found <;> simp

/-- What paths of one location lead to is the same. -/
theorem SameLocation.node_eq (h : fs.SameLocation path other) {node found : Node}
    (hpath : fs.node path = .ok node) (hother : fs.node other = .ok found) : found = node := by
  obtain ⟨place, rest, ⟨before, _, hsteps, hbefore⟩, ⟨before', _, hsteps', hbefore'⟩⟩ := h
  obtain ⟨last, hfind⟩ := node_eq_ok_iff.1 hpath
  obtain ⟨last', hfind'⟩ := node_eq_ok_iff.1 hother
  obtain ⟨_, ⟨_, hleads⟩, hnode⟩ := walkFrom_eq_ok_iff.1 hfind
  obtain ⟨_, ⟨_, hleads'⟩, hnode'⟩ := walkFrom_eq_ok_iff.1 hfind'
  rw [hsteps] at hleads
  rw [hsteps'] at hleads'
  obtain ⟨through, _, hfirst, hrest⟩ := hleads.split
  obtain ⟨through', _, hfirst', hrest'⟩ := hleads'.split
  obtain rfl := hfirst.place_eq hbefore
  obtain rfl := hfirst'.place_eq hbefore'
  obtain rfl := hrest.place_eq hrest'
  exact Option.some.inj (hnode'.symm.trans hnode)

end FileSystem

/-! ## One entry -/

theorem parent_isDirectory {root node above : Node} {place : Place}
    (hnode : lookUp root place = some node) (hdir : node.isDirectory = true)
    (habove : lookUp root place.tail = some above) : above.isDirectory = true := by
  cases place with
  | nil =>
      obtain rfl := Option.some.inj (hnode.symm.trans habove)
      exact hdir
  | cons name place =>
      rw [lookUp, List.reverse_cons] at hnode
      obtain ⟨inside, hinside, -⟩ := Node.at?_concat hnode
      obtain rfl := Option.some.inj (hinside.symm.trans habove)
      rfl

/-- Whether the last of some steps is into a name, in a directory the others lead to. -/
def EndsInto (root : Node) (links : Nat) (place : Place) (steps : List Step) (last : Place) :
    Prop :=
  ∃ front name directory left, steps = front ++ [.into name] ∧ last = name :: directory
    ∧ Leads root links place front directory left ∧ DirectoryAt root directory

/-- The last step behind a link is the last one behind its target too. -/
theorem EndsInto.link {root : Node} {links : Nat} {place last : Place} {name target : String}
    {rest : List Step} (hdir : DirectoryAt root place) (hname : ¬ nameLimit < name.utf8ByteSize)
    (hlink : lookUp root (name :: place) = some (.link target)) (hrest : rest ≠ [])
    (h : EndsInto root links (if isAbsolute target then [] else place) (stepsOf target ++ rest)
      last) : EndsInto root (links + 1) place (.into name :: rest) last := by
  obtain ⟨front, step, rfl⟩ := (List.eq_nil_or_concat' rest).resolve_left hrest
  obtain ⟨front', name', directory, left, heq, hlast, hleads, hdirectory⟩ := h
  rw [← List.append_assoc] at heq
  obtain ⟨rfl, hstep⟩ := List.append_inj' heq rfl
  exact ⟨.into name :: front, name', directory, left, by rw [hstep, List.cons_append], hlast,
    .link hdir hname hlink hleads, hdirectory⟩

/-- A walk that follows no link in its last step ends with a step into a name, unless it ends
at a directory. -/
theorem endsInto_of_walk {root : Node} {links : Nat} {place last : Place} {node found : Node}
    {steps : List Step} (hnode : lookUp root place = some node)
    (h : walk root false links place node steps = .ok (.node last found))
    (hplain : found.isDirectory = false) (hsteps : steps ≠ []) :
    EndsInto root links place steps last := by
  fun_induction walk root false links place node steps with
  | case1 => exact absurd rfl hsteps
  | case2 links place node rest hdir ih =>
      obtain ⟨entries, rfl⟩ := Node.isDirectory_iff.1 hdir
      by_cases hrest : rest = []
      · subst hrest
        rw [walk] at h
        cases h
        cases hplain
      · obtain ⟨front, name, directory, left, rfl, hlast, hleads, hdirectory⟩ := ih hnode h hrest
        exact ⟨.stay :: front, name, directory, left, rfl, hlast,
          .stay ⟨entries, hnode⟩ hleads, hdirectory⟩
  | case4 links place node rest hdir above habove ih =>
      have habove' := parent_isDirectory hnode hdir habove
      obtain ⟨entries, rfl⟩ := Node.isDirectory_iff.1 hdir
      by_cases hrest : rest = []
      · subst hrest
        rw [walk] at h
        cases h
        rw [habove'] at hplain
        cases hplain
      · obtain ⟨front, name, directory, left, rfl, hlast, hleads, hdirectory⟩ := ih habove h hrest
        exact ⟨.up :: front, name, directory, left, rfl, hlast,
          .up ⟨entries, hnode⟩ habove hleads, hdirectory⟩
  | case10 links place name rest entries hname target hfind hlast =>
      cases h
      obtain ⟨rfl, -⟩ := hlast
      exact ⟨[], name, place, links, rfl, rfl, .arrived, entries, hnode⟩
  | case12 place name rest entries hname target hfind hlast links habsolute ih =>
      have hrest : rest ≠ [] := fun hrest => hlast ⟨hrest, rfl⟩
      refine .link ⟨entries, hnode⟩ hname (by rw [lookUp_cons hnode, hfind]) hrest ?_
      rw [if_pos habsolute]
      exact ih rfl h (by simp [hrest])
  | case13 place name rest entries hname target hfind hlast links habsolute ih =>
      have hrest : rest ≠ [] := fun hrest => hlast ⟨hrest, rfl⟩
      refine .link ⟨entries, hnode⟩ hname (by rw [lookUp_cons hnode, hfind]) hrest ?_
      rw [if_neg habsolute]
      exact ih hnode h (by simp [hrest])
  | case14 links place name rest entries hname inner hlink hfind ih =>
      have hinner : lookUp root (name :: place) = some inner := by rw [lookUp_cons hnode, hfind]
      by_cases hrest : rest = []
      · subst hrest
        rw [walk] at h
        cases h
        exact ⟨[], name, place, links, rfl, rfl, .arrived, entries, hnode⟩
      · obtain ⟨front, name', directory, left, rfl, hlast, hleads, hdirectory⟩ :=
          ih hinner h hrest
        exact ⟨.into name :: front, name', directory, left, rfl, hlast,
          .into ⟨entries, hnode⟩ hname hinner hlink hleads, hdirectory⟩
  | case3 | case5 | case6 | case7 | case8 | case9 | case11 | case15 => cases h

/-- A walk that does not end at a link does not follow one in its last step. -/
theorem walk_of_not_link {root : Node} {links : Nat} {place last : Place} {node found : Node}
    {steps : List Step} (h : walk root false links place node steps = .ok (.node last found))
    (hplain : ∀ target, found ≠ .link target) :
    walk root true links place node steps = .ok (.node last found) := by
  fun_induction walk root false links place node steps with
  | case1 => rw [walk]; exact h
  | case2 links place node rest hdir ih =>
      rw [walk, if_pos hdir]
      exact ih h
  | case4 links place node rest hdir above habove ih =>
      simp only [walk, if_pos hdir, habove]
      exact ih h
  | case10 =>
      cases h
      exact absurd rfl (hplain _)
  | case12 place name rest entries hname target hfind hlast links habsolute ih =>
      simp only [walk, hfind, if_neg hname, Bool.true_eq_false, and_false, if_false, habsolute,
        if_true]
      exact ih h
  | case13 place name rest entries hname target hfind hlast links habsolute ih =>
      simp only [walk, hfind, if_neg hname, Bool.true_eq_false, and_false, if_false,
        if_neg habsolute]
      exact ih h
  | case14 links place name rest entries hname inner hlink hfind ih =>
      cases inner with
      | link target => exact absurd rfl (hlink target)
      | file _ | directory _ =>
          simp only [walk, hfind, if_neg hname]
          exact ih h
  | case3 | case5 | case6 | case7 | case8 | case9 | case11 | case15 => cases h

namespace FileSystem

variable {fs : FileSystem} {path other : String}

/-- Whether two paths lead to one entry of a directory, which may be a link. -/
def SameEntry (fs : FileSystem) (path other : String) : Prop :=
  ∃ place node, fs.find path false = .ok (.node place node)
    ∧ fs.find other false = .ok (.node place node)

/-- What is no directory is found in one. -/
theorem endsInto_of_find {place : Place} {node : Node}
    (h : fs.find path false = .ok (.node place node)) (hplain : node.isDirectory = false) :
    EndsInto fs.root linkLimit (fs.startOf path) (stepsOf path) place := by
  obtain ⟨husable, start, hstart, hwalk⟩ := walkFrom_eq_ok h
  exact endsInto_of_walk hstart hwalk hplain (stepsOf_ne_nil husable.ne_empty)

/-- A path that leads somewhere leads there from the place it starts at, however it treats a link
at its end. -/
theorem exists_find_eq {follow : Bool} {place : Place} {node : Node}
    (h : fs.find path follow = .ok (.node place node)) :
    ∃ start, walk fs.root follow linkLimit (fs.startOf path) start (stepsOf path)
        = .ok (.node place node)
      ∧ ∀ follow, fs.find path follow
        = walk fs.root follow linkLimit (fs.startOf path) start (stepsOf path) := by
  obtain ⟨husable, start, hstart, hwalk⟩ := walkFrom_eq_ok h
  exact ⟨start, hwalk, fun follow =>
    walkFrom_append husable .arrived hstart (stepsOf_ne_nil husable.ne_empty)⟩

/-- An entry that is no link is what the path leads to. -/
theorem find_of_not_link {place : Place} {node : Node}
    (h : fs.find path false = .ok (.node place node)) (hplain : ∀ target, node ≠ .link target) :
    fs.find path true = .ok (.node place node) := by
  obtain ⟨start, hwalk, hfind⟩ := exists_find_eq h
  rw [hfind]
  exact walk_of_not_link hwalk hplain

theorem find_of_directory {place : Place} {node : Node}
    (h : fs.find path false = .ok (.node place node)) (hdir : node.isDirectory = true) :
    fs.find path true = .ok (.node place node) := by
  refine find_of_not_link h ?_
  rintro target rfl
  cases hdir

/-- Paths to one entry name one location. -/
theorem SameEntry.sameLocation (h : fs.SameEntry path other) : fs.SameLocation path other := by
  obtain ⟨place, node, hpath, hother⟩ := h
  cases hdir : node.isDirectory with
  | true =>
      obtain ⟨-, ⟨left, hleads⟩, -⟩ := walkFrom_eq_ok_iff.1 (find_of_directory hpath hdir)
      obtain ⟨-, ⟨left', hleads'⟩, -⟩ := walkFrom_eq_ok_iff.1 (find_of_directory hother hdir)
      exact ⟨place, [], ⟨_, left, (List.append_nil _).symm, hleads⟩,
        ⟨_, left', (List.append_nil _).symm, hleads'⟩⟩
  | false =>
      obtain ⟨front, name, directory, left, hsteps, rfl, hleads, -⟩ := endsInto_of_find hpath hdir
      obtain ⟨front', name', directory', left', hsteps', hplace, hleads', -⟩ :=
        endsInto_of_find hother hdir
      cases hplace
      exact ⟨directory, [.into name], ⟨front, left, hsteps, hleads⟩,
        ⟨front', left', hsteps', hleads'⟩⟩

/-! ## Beside one entry -/

/-- The directory a path is in leads to the directory of its entry. -/
theorem exists_directory {directory : Place} {name : String} {front : List Step} {left : Nat}
    (hsteps : stepsOf path = front ++ [.into name])
    (hleads : Leads fs.root linkLimit (fs.startOf path) front directory left) :
    ∃ above left', parent path = some above
      ∧ Leads fs.root linkLimit (fs.startOf above) (plainSteps above) directory left' := by
  obtain ⟨above, stays, hparent, habsolute, rfl, hstays⟩ := exists_parent hsteps
  obtain ⟨through, mid, hfirst, hrest⟩ := hleads.split
  have hstay : through = directory := by
    clear hleads hsteps hfirst
    induction stays with
    | nil => cases hrest with
      | arrived => rfl
    | cons step rest ih =>
        obtain ⟨rfl, hrests⟩ := List.forall_mem_cons.1 hstays
        cases hrest with
        | stay _ hrest => exact ih hrests hrest
  rw [FileSystem.startOf, ← habsolute] at hfirst
  exact ⟨above, mid, hparent, hstay ▸ hfirst⟩

/-- What is joined to a directory is approached from there. -/
theorem approaches_join {directory path : String} {place : Place} {left : Nat}
    (hleads : Leads fs.root linkLimit (fs.startOf directory) (plainSteps directory) place left)
    (hplace : DirectoryAt fs.root place) (hpath : isAbsolute path = false) :
    fs.Approaches (join directory path) place (stepsOf path) := by
  have hstart := startOf_join_of_relative fs directory hpath
  by_cases hempty : path = ""
  · subst hempty
    have hnone : stepsOf "" = [] := by decide
    by_cases hdirectory : directory = ""
    · subst hdirectory
      exact ⟨[], left, rfl, hleads⟩
    · refine ⟨plainSteps directory ++ [.stay], left, ?_, ?_⟩
      · rw [stepsOf_join_empty hdirectory, hnone, List.append_nil]
      · rw [hstart]
        exact hleads.append (.stay hplace .arrived)
  · refine ⟨plainSteps directory, left, stepsOf_join_of_relative directory hpath hempty, ?_⟩
    rw [hstart]
    exact hleads

/-- **What is seen from the directory of a file does not depend on how the file is named.**
Joined to the directories of two paths to one entry, any path names one location. -/
theorem SameEntry.sameLocation_join (h : fs.SameEntry path other)
    (hfile : fs.isDirectory path = false) (setting : String) :
    ∃ directory directory', parent path = some directory ∧ parent other = some directory'
      ∧ fs.SameLocation (join directory setting) (join directory' setting) := by
  obtain ⟨place, node, hpath, hother⟩ := h
  have hplain : node.isDirectory = false := by
    by_contra hdir
    rw [Bool.not_eq_false] at hdir
    obtain ⟨entries, rfl⟩ := Node.isDirectory_iff.1 hdir
    have hnode := node_eq_ok_iff.2 ⟨place, find_of_directory hpath hdir⟩
    rw [isDirectory_iff.2 ⟨entries, hnode⟩] at hfile
    cases hfile
  obtain ⟨front, name, directory, left, hsteps, rfl, hleads, hdirectory⟩ :=
    endsInto_of_find hpath hplain
  obtain ⟨front', name', directory', left', hsteps', hplace, hleads', -⟩ :=
    endsInto_of_find hother hplain
  cases hplace
  obtain ⟨above, _, hparent, habove⟩ := exists_directory hsteps hleads
  obtain ⟨above', _, hparent', habove'⟩ := exists_directory hsteps' hleads'
  refine ⟨above, above', hparent, hparent', ?_⟩
  cases habsolute : isAbsolute setting with
  | true =>
      rw [join_of_absolute _ habsolute, join_of_absolute _ habsolute]
      exact .refl fs setting
  | false =>
      exact ⟨directory, stepsOf setting, approaches_join habove hdirectory habsolute,
        approaches_join habove' hdirectory habsolute⟩

end FileSystem

end WikiPress.Files
