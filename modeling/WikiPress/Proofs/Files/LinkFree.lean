import WikiPress.Proofs.Files.Making

/-!
# WikiPress.Proofs.Files.LinkFree

Trees without links.

Design points:

* Where there is no link, a path leads where its names say (`placeOf_find`). So what is written
  through one path is not seen through another one, unless the two have one place
  (`Spared.write`).
* Nothing a program does here creates a link, so a tree stays without.
-/

namespace WikiPress.Files

/-! ## Trees without links -/

/-- Whether there is no link in a tree. -/
inductive Node.LinkFree : Node → Prop
  | file (content : ByteArray) : LinkFree (.file content)
  | directory {entries : List (String × Node)} :
      (∀ entry ∈ entries, LinkFree entry.2) → LinkFree (.directory entries)

namespace Node.LinkFree

variable {node new : Node} {entries : List (String × Node)} {name : String}

theorem not_link (h : node.LinkFree) (target : String) : node ≠ .link target := by
  rintro rfl
  cases h

theorem empty : (Node.directory []).LinkFree :=
  .directory fun _ hentry => absurd hentry List.not_mem_nil

theorem find? (h : (Node.directory entries).LinkFree) {inner : Node}
    (hinner : Keyed.find? name entries = some inner) : inner.LinkFree := by
  cases h with
  | directory hentries => exact hentries _ (Keyed.mem_of_find? hinner)

theorem set (h : (Node.directory entries).LinkFree) (hnew : new.LinkFree) :
    (Node.directory (Keyed.set name new entries)).LinkFree := by
  cases h with
  | directory hentries =>
      refine .directory fun entry hentry => ?_
      rcases Keyed.mem_set hentry with rfl | hold
      · exact hnew
      · exact hentries entry hold

theorem updateAt {change : Keyed Node → Keyed Node}
    (hchange : ∀ entries, (Node.directory entries).LinkFree →
      (Node.directory (change entries)).LinkFree) (names : List String) (h : node.LinkFree) :
    (node.updateAt change names).LinkFree := by
  induction names generalizing node with
  | nil =>
      cases h with
      | file content => exact .file content
      | directory hentries => exact hchange _ (.directory hentries)
  | cons name rest ih =>
      cases h with
      | file content => exact .file content
      | directory hentries =>
          refine .directory fun entry hentry => ?_
          obtain ⟨⟨n, inner⟩, hmem, rfl⟩ := List.mem_map.1 hentry
          dsimp only
          split
          · exact ih (hentries _ hmem)
          · exact hentries _ hmem

end Node.LinkFree

/-- Names lead through a tree without links to what is under them, or to the last of them if it
is free. -/
theorem walk_linkFree {root : Node} {follow : Bool} {links : Nat} {place : Place} {node : Node}
    {found : Found} (names : List String) (hnode : node.LinkFree)
    (h : walk root follow links place node (names.map .into) = .ok found) :
    (∃ inner, found = .node (names.reverse ++ place) inner ∧ Node.at? names node = some inner)
      ∨ ∃ front name inside, names = front ++ [name]
        ∧ found = .vacant (front.reverse ++ place) name
        ∧ Node.at? front node = some (.directory inside) ∧ Keyed.find? name inside = none := by
  induction names generalizing place node with
  | nil =>
      rw [List.map_nil, walk] at h
      cases h
      exact Or.inl ⟨node, rfl, rfl⟩
  | cons name rest ih =>
      cases hnode with
      | file content => simp [walk] at h
      | @directory entries hentries =>
          have hnode := Node.LinkFree.directory hentries
          by_cases hlong : nameLimit < name.utf8ByteSize
          · simp [walk, hlong] at h
          cases hfind : Keyed.find? name entries with
          | none =>
              by_cases hrest : rest = []
              · subst hrest
                simp [walk, hlong, hfind] at h
                exact Or.inr ⟨[], name, entries, rfl, h.symm, rfl, hfind⟩
              · simp [walk, hlong, hfind, hrest] at h
          | some inner =>
              have hinner := hnode.find? hfind
              have hwalk : walk root follow links (name :: place) inner (rest.map .into)
                  = .ok found := by
                cases inner with
                | link target => exact absurd rfl (hinner.not_link target)
                | file _ | directory _ => simpa [walk, hlong, hfind] using h
              rcases ih hinner hwalk with
                ⟨last, rfl, hlast⟩ | ⟨front, n, inside, rfl, rfl, hat, hfree⟩
              · exact Or.inl ⟨last, by simp, by rw [Node.at?, hfind]; exact hlast⟩
              · exact Or.inr ⟨name :: front, n, inside, rfl, by simp,
                  by rw [Node.at?, hfind]; exact hat, hfree⟩

/-! ## Places -/

theorem Node.LinkFree.at? {names : List String} {node inner : Node} (h : node.LinkFree)
    (hinner : Node.at? names node = some inner) : inner.LinkFree := by
  induction names generalizing node with
  | nil =>
      obtain rfl := Option.some.inj hinner
      exact h
  | cons name rest ih =>
      cases h with
      | file content => cases hinner
      | directory hentries =>
          obtain ⟨next, hnext, hrest⟩ := Option.bind_eq_some_iff.1 hinner
          exact ih (hentries _ (Keyed.mem_of_find? hnext)) hrest

/-- The place at which something was found, or would be. -/
def Found.place : Found → Place
  | .node place _ => place
  | .vacant directory name => name :: directory

/-- In a tree without links a walk ends where its steps say. -/
theorem place_of_walk {root : Node} {follow : Bool} {links : Nat} {place : Place} {node : Node}
    {steps : List Step} {found : Found} (hroot : root.LinkFree)
    (hnode : lookUp root place = some node)
    (h : walk root follow links place node steps = .ok found) :
    found.place = steps.foldl stepFrom place := by
  fun_induction walk root follow links place node steps with
  | case1 links place node =>
      cases h
      rfl
  | case2 links place node rest hdir ih => exact ih hnode h
  | case4 links place node rest hdir above habove ih => exact ih habove h
  | case8 links place name entries hname hfind =>
      cases h
      rfl
  | case14 links place name rest entries hname inner hlink hfind ih =>
      exact ih (by rw [lookUp_cons hnode, hfind]) h
  -- what is under a name is no link
  | case10 | case11 =>
      next hfind _ => exact absurd rfl (((hroot.at? hnode).find? hfind).not_link _)
  | case12 _ _ _ _ _ target hfind | case13 _ _ _ _ _ target hfind =>
      exact absurd rfl (((hroot.at? hnode).find? hfind).not_link target)
  | case3 | case5 | case6 | case7 | case9 | case15 => cases h

/-- In a tree without links a path leads to the place it names. -/
theorem placeOf_find {fs : FileSystem} (hroot : fs.root.LinkFree) {path : String} {follow : Bool}
    {found : Found} (h : fs.find path follow = .ok found) : found.place = fs.placeOf path := by
  obtain ⟨-, node, hnode, hwalk⟩ := walkFrom_eq_ok h
  rw [place_of_walk hroot hnode hwalk, stepsOf, List.foldl_append]
  -- a slash at the end leads nowhere else
  split <;> rfl

/-! ## Writing -/

/-- A file that is written takes a name that was free or a file's, and its path leads to it. -/
theorem write_eq_ok {fs after : FileSystem} {path : String} {content : ByteArray}
    (h : fs.write path content = .ok after) :
    ∃ directory name entries found, fs.find path true = .ok found
      ∧ found.place = name :: directory
      ∧ lookUp fs.root directory = some (.directory entries)
      ∧ (∀ old, Keyed.find? name entries = some old → ∃ bytes, old = .file bytes)
      ∧ after = fs.put directory name (.file content)
      ∧ ∃ left, Leads after.root linkLimit (fs.startOf path) (stepsOf path) (name :: directory)
        left := by
  unfold FileSystem.write at h
  split at h
  · next directory name hfind =>
      cases h
      obtain ⟨-, node, hnode, hwalk⟩ := walkFrom_eq_ok hfind
      obtain ⟨entries, hentries, hfree⟩ := free_of_vacant hnode hwalk
      have hextends : Extends fs.root (fs.put directory name (.file content)).root :=
        extends_put_free hentries name _ hfree
      have hnew := lookUp_put_below hentries name (.file content) []
      refine ⟨directory, name, entries, _, hfind, rfl, hentries, fun old hold => ?_, rfl,
        leads_of_vacant hextends hnew (by simp) hnode hwalk⟩
      rw [hfree] at hold
      cases hold
  · next name directory bytes hfind =>
      cases h
      obtain ⟨-, ⟨left, hleads⟩, hfile⟩ := walkFrom_eq_ok_iff.1 hfind
      rw [lookUp, List.reverse_cons] at hfile
      obtain ⟨entries, hentries, hold⟩ := Node.at?_concat hfile
      refine ⟨directory, name, entries, _, hfind, rfl, hentries, fun old hfound => ?_, rfl, left,
        hleads.extend (extends_put hentries name _ fun old hfound => ?_)⟩
      · rw [hold] at hfound
        cases hfound
        exact ⟨bytes, rfl⟩
      · rw [hold] at hfound
        cases hfound
        exact ⟨⟨bytes, rfl⟩, content, rfl⟩
  · cases h
  · cases h

/-- What was written is read. -/
theorem read_write {fs after : FileSystem} {path : String} {content : ByteArray}
    (h : fs.write path content = .ok after) : after.read path = .ok content := by
  obtain ⟨directory, name, entries, found, hfind, -, hentries, -, rfl, left, hleads⟩ :=
    write_eq_ok h
  exact read_eq_ok_iff.2 ⟨name :: directory, walkFrom_eq_ok_iff.2
    ⟨usable_of_walkFrom hfind, ⟨left, hleads⟩, lookUp_put_self hentries name content⟩⟩

/-- Writing creates no link, and neither does creating directories. -/
theorem Node.LinkFree.write {fs after : FileSystem} {path : String} {content : ByteArray}
    (h : fs.root.LinkFree) (hwrite : fs.write path content = .ok after) : after.root.LinkFree := by
  obtain ⟨_, _, _, _, -, -, -, -, rfl, -⟩ := write_eq_ok hwrite
  exact h.updateAt (fun _ hbefore => hbefore.set (.file content)) _

theorem Node.LinkFree.makeDirectories {fs : FileSystem} (h : fs.root.LinkFree) (path : String) :
    (fs.makeDirectories path).2.root.LinkFree := by
  refine makeDirectories_keeps (P := fun fs => fs.root.LinkFree)
    (fun before after outer hbefore _ hmake => ?_) h
  obtain ⟨_, _, _, _, _, rfl, -⟩ := makeDirectory_eq_ok hmake
  exact hbefore.updateAt (fun _ hentries => hentries.set .empty) _

/-- A copy is written to its destination after that was emptied, with what its source has
then. -/
theorem copy_eq_ok {fs after : FileSystem} {source destination : String}
    (h : fs.copy source destination = .ok after) :
    ∃ emptied content, fs.write destination .empty = .ok emptied
      ∧ emptied.read source = .ok content ∧ emptied.write destination content = .ok after := by
  simp only [FileSystem.copy, bind, Except.bind] at h
  split at h
  · cases h
  · split at h
    · split at h
      · cases h
      · next emptied hemptied =>
          split at h
          · cases h
          · next content hcontent => exact ⟨emptied, content, hemptied, hcontent, h⟩
    · cases h

/-! ## Files that are left alone -/

/-- Whether a file is as it was, in a tree without links that only grew since. -/
structure Spared (start : FileSystem) (place : Place) (content : ByteArray) (fs : FileSystem) :
    Prop where
  linkFree : fs.root.LinkFree
  grown : Extends start.root fs.root
  workingDirectory : fs.workingDirectory = start.workingDirectory
  file : lookUp fs.root place = some (.file content)

theorem placeOf_eq {fs start : FileSystem} (h : fs.workingDirectory = start.workingDirectory)
    (path : String) : fs.placeOf path = start.placeOf path := by
  unfold FileSystem.placeOf FileSystem.startOf
  rw [h]

/-- A file that is read in a tree without links. -/
theorem spared_of_read {fs : FileSystem} (hroot : fs.root.LinkFree) {path : String}
    {content : ByteArray} (hread : fs.read path = .ok content) :
    Spared fs (fs.placeOf path) content fs := by
  obtain ⟨place, hwalk⟩ := read_eq_ok_iff.1 hread
  obtain ⟨-, -, hfile⟩ := walkFrom_eq_ok_iff.1 hwalk
  have hplace : place = fs.placeOf path := placeOf_find hroot hwalk
  exact ⟨hroot, .refl _, rfl, hplace ▸ hfile⟩

namespace Spared

variable {start fs after : FileSystem} {place : Place} {content : ByteArray}

/-- A file that is as it was is read as it was. -/
theorem read (h : Spared start place content fs) {path : String}
    (hread : start.read path = .ok content) (hstart : start.root.LinkFree)
    (hplace : start.placeOf path = place) : fs.read path = .ok content := by
  obtain ⟨found, hwalk⟩ := read_eq_ok_iff.1 hread
  obtain ⟨husable, ⟨left, hleads⟩, -⟩ := walkFrom_eq_ok_iff.1 hwalk
  have hfound : found = place := (placeOf_find hstart hwalk).trans hplace
  subst hfound
  refine read_eq_ok_iff.2 ⟨found, walkFrom_eq_ok_iff.2 ⟨husable, ⟨left, ?_⟩, h.file⟩⟩
  rw [FileSystem.startOf, h.workingDirectory]
  exact hleads.extend h.grown

/-- A node that is put elsewhere, under a name that was free or a file's. -/
theorem put (h : Spared start place content fs) {directory : Place} {name : String}
    {entries : List (String × Node)} {new : Node}
    (hentries : lookUp fs.root directory = some (.directory entries))
    (hold : ∀ old, Keyed.find? name entries = some old →
      (∃ bytes, old = .file bytes) ∧ ∃ bytes, new = .file bytes) (hnew : new.LinkFree)
    (helsewhere : name :: directory ≠ place) :
    Spared start place content (fs.put directory name new) where
  linkFree := h.linkFree.updateAt (fun _ hbefore => hbefore.set hnew) _
  grown := h.grown.trans (extends_put hentries name new hold)
  workingDirectory := h.workingDirectory
  file := by
    have haway : ¬ name :: directory <:+ place := by
      rintro ⟨below, rfl⟩
      have hfile := h.file
      rw [lookUp_below hentries] at hfile
      obtain ⟨old, hfound, hbelow⟩ := Option.bind_eq_some_iff.1 hfile
      obtain ⟨⟨bytes, rfl⟩, -⟩ := hold old hfound
      -- nothing is below a file
      cases hnames : below.reverse with
      | nil => exact helsewhere (by rw [List.reverse_eq_nil_iff.1 hnames]; rfl)
      | cons first rest =>
          rw [hnames] at hbelow
          cases hbelow
    obtain ⟨later, hlater, halike⟩ :=
      exists_alike h.file (lookUp_put_elsewhere name new haway)
    cases halike
    exact hlater

theorem write (h : Spared start place content fs) {path : String} {bytes : ByteArray}
    (hpath : start.placeOf path ≠ place) (hwrite : fs.write path bytes = .ok after) :
    Spared start place content after := by
  obtain ⟨directory, name, entries, found, hfind, hfound, hentries, hold, rfl, -⟩ :=
    write_eq_ok hwrite
  refine h.put hentries (fun old hname => ⟨hold old hname, bytes, rfl⟩) (.file bytes) ?_
  rw [← hfound, placeOf_find h.linkFree hfind, placeOf_eq h.workingDirectory]
  exact hpath

theorem copy (h : Spared start place content fs) {source path : String}
    (hpath : start.placeOf path ≠ place) (hcopy : fs.copy source path = .ok after) :
    Spared start place content after := by
  obtain ⟨emptied, bytes, hemptied, -, hwritten⟩ := copy_eq_ok hcopy
  exact (h.write hpath hemptied).write hpath hwritten

theorem makeDirectory (h : Spared start place content fs) {path : String}
    (hmake : fs.makeDirectory path = .ok after) : Spared start place content after := by
  obtain ⟨directory, name, entries, hentries, hfree, rfl, -⟩ := makeDirectory_eq_ok hmake
  refine h.put hentries (fun old hold => ?_) .empty ?_
  · rw [hfree] at hold
    cases hold
  · rintro rfl
    have hfile := h.file
    rw [lookUp_cons hentries, hfree] at hfile
    cases hfile

theorem makeDirectories (h : Spared start place content fs) (path : String) :
    Spared start place content (fs.makeDirectories path).2 :=
  makeDirectories_keeps (fun _ _ _ hbefore _ hmake => hbefore.makeDirectory hmake) h

end Spared

end WikiPress.Files
