import WikiPress.Proofs.Files.LinkFree

/-!
# WikiPress.Proofs.Files.Confined

What is written through the path of a directory stays in the directory.

Design points:

* There is no link in the directory (`Houses`), so a name behind its path is a name in it. The
  rest of the tree may have links, also into the directory.
* Files elsewhere stay as they are (`Confined`). Whether a path leads elsewhere is asked once
  everything is written (`Outside`): a path that led nowhere may lead into the directory by then.
-/

namespace WikiPress.Files

/-! ## Changes at a place -/

/-- Whether a tree only grew, and no file was changed but at a place or below it. -/
structure Confined (place : Place) (before after : FileSystem) : Prop where
  grown : Extends before.root after.root
  workingDirectory : after.workingDirectory = before.workingDirectory
  kept : ∀ elsewhere content, ¬ place <:+ elsewhere →
    lookUp before.root elsewhere = some (.file content) →
    lookUp after.root elsewhere = some (.file content)

/-- Whether a path does not lead to a place or below it. -/
def Outside (place : Place) (fs : FileSystem) (path : String) : Prop :=
  ∀ found node, fs.find path true = .ok (.node found node) → ¬ place <:+ found

theorem Outside.below {place inner : Place} {fs : FileSystem} {path : String}
    (h : Outside place fs path) (hplace : place <:+ inner) : Outside inner fs path :=
  fun found node hfind hinner => h found node hfind (hplace.trans hinner)

/-- Creating directories changes no file anywhere. -/
theorem Grown.confined {paths : List String} {before after : FileSystem}
    (h : Grown paths before after) (place : Place) : Confined place before after where
  grown := h.toExtends
  workingDirectory := h.workingDirectory
  kept elsewhere content _ hfile := by
    obtain ⟨later, hlater, halike⟩ := h.kept elsewhere _ hfile
    cases halike
    exact hlater

/-- A name that was free is given away, or that of a file to a file. -/
theorem confined_put {fs : FileSystem} {directory : Place} {entries : List (String × Node)}
    (hentries : lookUp fs.root directory = some (.directory entries)) {name : String} {new : Node}
    (hold : ∀ old, Keyed.find? name entries = some old →
      (∃ content, old = .file content) ∧ ∃ content, new = .file content) :
    Confined (name :: directory) fs (fs.put directory name new) where
  grown := extends_put hentries name new hold
  workingDirectory := rfl
  kept elsewhere content helsewhere hfile := by
    obtain ⟨later, hlater, halike⟩ :=
      exists_alike hfile (lookUp_put_elsewhere name new helsewhere)
    cases halike
    exact hlater

namespace Confined

variable {place inner : Place} {before between after : FileSystem} {path : String}

theorem refl (place : Place) (fs : FileSystem) : Confined place fs fs where
  grown := .refl _
  workingDirectory := rfl
  kept _ _ _ h := h

theorem trans (h : Confined place before between) (h' : Confined place between after) :
    Confined place before after where
  grown := h.grown.trans h'.grown
  workingDirectory := h'.workingDirectory.trans h.workingDirectory
  kept elsewhere content helsewhere hfile :=
    h'.kept elsewhere content helsewhere (h.kept elsewhere content helsewhere hfile)

theorem widen (h : Confined inner before after) (hplace : place <:+ inner) :
    Confined place before after where
  grown := h.grown
  workingDirectory := h.workingDirectory
  kept elsewhere content helsewhere hfile :=
    h.kept elsewhere content (fun hinner => helsewhere (hplace.trans hinner)) hfile

/-- What was found is found at the same place. -/
theorem find (h : Confined place before after) {found : Place} {node : Node}
    (hfind : before.find path true = .ok (.node found node)) :
    ∃ later, after.find path true = .ok (.node found later) := by
  obtain ⟨husable, ⟨left, hleads⟩, hnode⟩ := walkFrom_eq_ok_iff.1 hfind
  obtain ⟨later, hlater, -⟩ := h.grown found node hnode
  refine ⟨later, walkFrom_eq_ok_iff.2 ⟨husable, ⟨left, ?_⟩, hlater⟩⟩
  rw [FileSystem.startOf, h.workingDirectory]
  exact hleads.extend h.grown

/-- A path that is outside now was so before. -/
theorem outside_before (h : Confined place before after) (houtside : Outside inner after path) :
    Outside inner before path := by
  intro found node hfind
  obtain ⟨later, hlater⟩ := h.find hfind
  exact houtside found later hlater

/-- A path that led elsewhere is still outside. -/
theorem outside (h : Confined place before after) {found : Place} {node : Node}
    (hfind : before.find path true = .ok (.node found node)) (helsewhere : ¬ inner <:+ found) :
    Outside inner after path := by
  intro place other hother
  obtain ⟨later, hlater⟩ := h.find hfind
  rw [hlater] at hother
  cases hother
  exact helsewhere

/-- A file elsewhere is found as before. -/
theorem find_file (h : Confined place before after) {found : Place} {content : ByteArray}
    (hfind : before.find path true = .ok (.node found (.file content)))
    (helsewhere : ¬ place <:+ found) :
    after.find path true = .ok (.node found (.file content)) := by
  obtain ⟨later, hlater⟩ := h.find hfind
  obtain ⟨-, -, hfile⟩ := walkFrom_eq_ok_iff.1 hfind
  obtain ⟨husable, hleads, -⟩ := walkFrom_eq_ok_iff.1 hlater
  exact walkFrom_eq_ok_iff.2 ⟨husable, hleads, h.kept found content helsewhere hfile⟩

theorem read (h : Confined place before after) {content : ByteArray}
    (hread : before.read path = .ok content) (houtside : Outside place after path) :
    after.read path = .ok content := by
  obtain ⟨found, hfind⟩ := read_eq_ok_iff.1 hread
  obtain ⟨later, hlater⟩ := h.find hfind
  exact read_eq_ok_iff.2 ⟨found, h.find_file hfind (houtside found later hlater)⟩

end Confined

/-! ## Directories without links -/

/-- Whether a path leads to a directory with some entries, without a link in it. -/
structure Houses (fs : FileSystem) (path : String) (place : Place) (left : Nat)
    (entries : List (String × Node)) : Prop where
  reached : At fs path place left
  there : lookUp fs.root place = some (.directory entries)
  linkFree : (Node.directory entries).LinkFree

/-- A directory that was asked for is there. -/
theorem isDirectory_of_makeDirectories {fs made : FileSystem} {path : String} (hpath : path ≠ "")
    (h : fs.makeDirectories path = (.ok (), made)) : made.isDirectory path = true := by
  have hcreated : ∀ {earlier : FileSystem}, earlier.makeDirectory path = .ok made →
      made.isDirectory path = true := by
    intro earlier hmake
    obtain ⟨place, name, entries, hentries, -, rfl, left, hat⟩ := makeDirectory_eq_ok hmake
    exact FileSystem.isDirectory_iff.2 ⟨[], node_eq_directory_iff.2
      ⟨name :: place, left, hat, lookUp_put_below hentries name (.directory []) []⟩⟩
  obtain ⟨outer, houter⟩ := ancestors_cons hpath
  rw [FileSystem.makeDirectories, houter, FileSystem.makeMissing] at h
  split at h
  · next hmake =>
      cases h
      exact hcreated hmake
  -- those around it are created first
  · split at h
    · cases h
    · split at h
      · next hmake =>
          cases h
          exact hcreated hmake
      · split at h
        · next hthere =>
            cases h
            exact hthere
        · cases h
  · split at h
    · next hthere =>
        cases h
        exact hthere
    · cases h

theorem exists_houses {fs made : FileSystem} {path : String} (hpath : path ≠ "")
    (h : fs.makeDirectories path = (.ok (), made))
    (hlinks : ∀ node, made.node path = .ok node → node.LinkFree) :
    ∃ place left entries, Houses made path place left entries := by
  obtain ⟨entries, hnode⟩ :=
    FileSystem.isDirectory_iff.1 (isDirectory_of_makeDirectories hpath h)
  obtain ⟨place, left, hat, hthere⟩ := node_eq_directory_iff.1 hnode
  exact ⟨place, left, entries, hat, hthere, hlinks _ hnode⟩

namespace Houses

variable {fs after : FileSystem} {path name source : String} {place : Place} {left : Nat}
  {entries : List (String × Node)} {content : ByteArray}

theorem node (h : Houses fs path place left entries) :
    fs.node path = .ok (.directory entries) :=
  node_eq_directory_iff.2 ⟨place, left, h.reached, h.there⟩

/-- What a name behind the path leads to. -/
theorem of_find (h : Houses fs path place left entries) (hname : ProperName name) {found : Found}
    (hfind : fs.find (join path name) true = .ok found) :
    Allowed name ∧ (Keyed.find? name entries = none ∧ found = .vacant place name
      ∨ ∃ inner, Keyed.find? name entries = some inner ∧ found = .node (name :: place) inner) := by
  have hnul : '\x00' ∉ name.toList :=
    (usable_join h.reached.usable hname).1 (usable_of_walkFrom hfind)
  rw [h.reached.find_join h.there hname hnul] at hfind
  have hshort : ¬ nameLimit < name.utf8ByteSize := by
    intro hlong
    rw [walk, if_pos hlong] at hfind
    cases hfind
  refine ⟨⟨hname, hnul, hshort⟩, ?_⟩
  cases hentry : Keyed.find? name entries with
  | none =>
      rw [walk_into_free hshort hentry] at hfind
      exact .inl ⟨rfl, (Except.ok.inj hfind).symm⟩
  | some inner =>
      rw [walk_into_node hshort hentry (h.linkFree.find? hentry).not_link] at hfind
      exact .inr ⟨inner, rfl, (Except.ok.inj hfind).symm⟩

/-- What is in the directory is found under its name. -/
theorem find (h : Houses fs path place left entries) (hname : Allowed name) {inner : Node}
    (hinner : Keyed.find? name entries = some inner) :
    fs.find (join path name) true = .ok (.node (name :: place) inner) := by
  rw [h.reached.find_join h.there hname.proper hname.nul]
  exact walk_into_node hname.short hinner (h.linkFree.find? hinner).not_link

theorem node_iff (h : Houses fs path place left entries) (hname : Allowed name) {node : Node} :
    fs.node (join path name) = .ok node ↔ Keyed.find? name entries = some node := by
  rw [FileSystem.node]
  cases hentry : Keyed.find? name entries with
  | none =>
      rw [h.reached.find_join h.there hname.proper hname.nul, walk_into_free hname.short hentry]
      simp
  | some inner =>
      rw [h.find hname hentry]
      simp

theorem read (h : Houses fs path place left entries) (hname : Allowed name)
    (hfile : Keyed.find? name entries = some (.file content)) :
    fs.read (join path name) = .ok content :=
  read_eq_ok_iff.2 ⟨name :: place, h.find hname hfile⟩

/-- A directory inside. -/
theorem join (h : Houses fs path place left entries) (hname : Allowed name)
    {inside : List (String × Node)}
    (hinside : Keyed.find? name entries = some (.directory inside)) :
    Houses fs (Files.join path name) (name :: place) left inside where
  reached := h.reached.join h.there hname hinside (by simp)
  there := by rw [lookUp_cons h.there, hinside]
  linkFree := h.linkFree.find? hinside

/-- The directory once an entry is put into it. -/
theorem put (h : Houses fs path place left entries) {new : Node}
    (hold : ∀ old, Keyed.find? name entries = some old →
      (∃ content, old = .file content) ∧ ∃ content, new = .file content) (hnew : new.LinkFree) :
    Houses (fs.put place name new) path place left (Keyed.set name new entries) where
  reached := h.reached.extend (extends_put h.there name new hold) rfl
  there := lookUp_put_directory h.there name new
  linkFree := h.linkFree.set hnew

/-- A file written under a name in the directory. -/
theorem write (h : Houses fs path place left entries) (hname : ProperName name)
    (hwrite : fs.write (Files.join path name) content = .ok after) :
    Allowed name ∧ (∀ old, Keyed.find? name entries = some old → ∃ bytes, old = .file bytes)
      ∧ Houses after path place left (Keyed.set name (.file content) entries)
      ∧ Confined (name :: place) fs after := by
  obtain ⟨directory, last, others, found, hfind, hplace, hothers, hold, rfl, -⟩ :=
    write_eq_ok hwrite
  obtain ⟨hallowed, hfound⟩ := h.of_find hname hfind
  have hhere : last :: directory = name :: place := by
    rw [← hplace]
    obtain ⟨-, rfl⟩ | ⟨inner, -, rfl⟩ := hfound
    · rfl
    · rfl
  cases hhere
  rw [h.there] at hothers
  cases hothers
  have hfiles : ∀ old, Keyed.find? name entries = some old →
      (∃ bytes, old = .file bytes) ∧ ∃ bytes, Node.file content = .file bytes :=
    fun old hfound => ⟨hold old hfound, content, rfl⟩
  exact ⟨hallowed, hold, h.put hfiles (.file content), confined_put h.there hfiles⟩

/-- A name that is free or a file's can be written to. -/
theorem exists_write (h : Houses fs path place left entries) (hname : Allowed name)
    (hold : ∀ old, Keyed.find? name entries = some old → ∃ bytes, old = .file bytes)
    (content : ByteArray) : ∃ after, fs.write (Files.join path name) content = .ok after := by
  rw [FileSystem.write]
  cases hentry : Keyed.find? name entries with
  | none =>
      rw [h.reached.find_join h.there hname.proper hname.nul, walk_into_free hname.short hentry]
      exact ⟨_, rfl⟩
  | some old =>
      obtain ⟨bytes, rfl⟩ := hold old hentry
      rw [h.find hname hentry]
      exact ⟨_, rfl⟩

/-- So can a file that is elsewhere be copied to it. -/
theorem exists_copy (h : Houses fs path place left entries) (hname : Allowed name)
    (hold : ∀ old, Keyed.find? name entries = some old → ∃ bytes, old = .file bytes)
    {found : Place} (hsource : fs.find source true = .ok (.node found (.file content)))
    (helsewhere : ¬ name :: place <:+ found) :
    ∃ after, fs.copy source (Files.join path name) = .ok after := by
  obtain ⟨emptied, hemptied⟩ := h.exists_write hname hold .empty
  obtain ⟨-, -, hbetween, hconfined⟩ := h.write hname.proper hemptied
  have hread : emptied.read source = .ok content :=
    hconfined.read (read_eq_ok_iff.2 ⟨found, hsource⟩) (hconfined.outside hsource helsewhere)
  obtain ⟨after, hafter⟩ := hbetween.exists_write hname (fun old hfound => by
    rw [Keyed.find?_set_self] at hfound
    cases hfound
    exact ⟨_, rfl⟩) content
  refine ⟨after, ?_⟩
  simp only [FileSystem.copy, FileSystem.node, hsource, bind, Except.bind, hemptied, hread, hafter]

/-- A file copied to a name in the directory takes no name but a file's, and has the bytes its
source has then, if that is another file. -/
theorem copy (h : Houses fs path place left entries) (hname : ProperName name)
    (hcopy : fs.copy source (Files.join path name) = .ok after) :
    ∃ later bytes, Houses after path place left later ∧ Confined (name :: place) fs after
      ∧ Allowed name ∧ (∀ old, Keyed.find? name entries = some old → ∃ content, old = .file content)
      ∧ Keyed.find? name later = some (.file bytes)
      ∧ (∀ other, other ≠ name → Keyed.find? other later = Keyed.find? other entries)
      ∧ (Outside (name :: place) after source → after.read source = .ok bytes) := by
  obtain ⟨emptied, bytes, hemptied, hread, hwritten⟩ := copy_eq_ok hcopy
  obtain ⟨hallowed, hfree, hbetween, hfirst⟩ := h.write hname hemptied
  obtain ⟨-, -, hafter, hsecond⟩ := hbetween.write hname hwritten
  refine ⟨_, bytes, hafter, hfirst.trans hsecond, hallowed, hfree, Keyed.find?_set_self _ _ _,
    fun other hne => ?_, fun houtside => hsecond.read hread houtside⟩
  rw [Keyed.find?_set_of_ne hne, Keyed.find?_set_of_ne hne]

/-- A directory created under a name in the directory, unless it was there. -/
theorem makeDirectories (h : Houses fs path place left entries) (hname : Allowed name)
    (hmake : fs.makeDirectories (Files.join path name) = (.ok (), after)) :
    ∃ inside, Houses after (Files.join path name) (name :: place) left inside
      ∧ Confined (name :: place) fs after
      ∧ (Keyed.find? name entries = some (.directory inside)
        ∨ Keyed.find? name entries = none ∧ inside = []) := by
  cases hentry : Keyed.find? name entries with
  | none =>
      rw [h.reached.makeDirectories_free h.there hname hentry] at hmake
      cases hmake
      have hfree : ∀ old, Keyed.find? name entries = some old →
          (∃ content, old = .file content) ∧ ∃ content, Node.directory [] = .file content := by
        intro old hold
        rw [hentry] at hold
        cases hold
      exact ⟨[], (h.put hfree .empty).join hname (Keyed.find?_set_self _ _ _),
        confined_put h.there hfree, .inr ⟨rfl, rfl⟩⟩
  | some inner =>
      have hsame := h.reached.makeDirectories_taken h.there hname hentry
        (h.linkFree.find? hentry).not_link
      rw [hmake] at hsame
      obtain rfl : after = fs := hsame
      have hthere := isDirectory_of_makeDirectories
        (join_ne_empty h.reached.usable.ne_empty hname.proper) hmake
      obtain ⟨inside, hnode⟩ := FileSystem.isDirectory_iff.1 hthere
      have hfind := h.reached.find_join h.there hname.proper hname.nul true
      rw [walk_into_node hname.short hentry (h.linkFree.find? hentry).not_link] at hfind
      rw [FileSystem.node, hfind] at hnode
      obtain rfl : inner = .directory inside := Except.ok.inj hnode
      exact ⟨inside, h.join hname hentry, .refl _ _, .inl rfl⟩

end Houses

end WikiPress.Files
