import WikiPress.Proofs.Files.Lexical

/-!
# WikiPress.Proofs.Files.Listed

What of a tree can be listed.

What can be listed is a tree again: of each directory it has the files and links, and those
subdirectories that may be listed in turn (`mem_listedEntries`).

Design points:

* What may be listed is asked of a path and a place together. The two go down the tree in step.
* Nothing changes in the names, so a tree of proper names stays one.
-/

namespace WikiPress.Files

variable {fs : FileSystem} {path name : String} {place : Place} {node : Node}
  {entries contents : List (String × Node)}

@[simp] theorem isDirectory_listed :
    (fs.listed path place node).isDirectory = node.isDirectory := by
  cases node <;> simp [FileSystem.listed, Node.isDirectory]

theorem listed_of_not_directory (h : node.isDirectory = false) :
    fs.listed path place node = node := by
  cases node with
  | directory entries => cases h
  | file _ | link _ => simp [FileSystem.listed]

/-- What a directory has in the tree that can be listed: all that is in it, but for the directories
that may not be listed. -/
theorem mem_listedEntries : (name, node) ∈ fs.listedEntries path place entries
    ↔ ∃ whole, (name, whole) ∈ entries
      ∧ (whole.isDirectory = true → fs.mayList (join path name) (name :: place) = true)
      ∧ node = fs.listed (join path name) (name :: place) whole := by
  induction entries with
  | nil => simp [FileSystem.listedEntries]
  | cons entry rest ih =>
      obtain ⟨first, whole⟩ := entry
      rw [FileSystem.listedEntries]
      split
      · next hskipped =>
          rw [Bool.and_eq_true, Bool.not_eq_true'] at hskipped
          rw [ih]
          constructor
          · intro ⟨other, hmem, hrest⟩
            exact ⟨other, List.mem_cons_of_mem _ hmem, hrest⟩
          · intro ⟨other, hmem, hlist, hlisted⟩
            rcases List.mem_cons.1 hmem with heq | hmem
            · cases heq
              simp [hlist hskipped.1] at hskipped
            · exact ⟨other, hmem, hlist, hlisted⟩
      · next hkept =>
          have hlist : whole.isDirectory = true →
              fs.mayList (join path first) (first :: place) = true := by simpa using hkept
          rw [List.mem_cons, ih]
          constructor
          · intro h
            rcases h with heq | ⟨other, hmem, hrest⟩
            · cases heq
              exact ⟨whole, List.mem_cons_self, hlist, rfl⟩
            · exact ⟨other, List.mem_cons_of_mem _ hmem, hrest⟩
          · intro ⟨other, hmem, hlist', hlisted⟩
            rcases List.mem_cons.1 hmem with heq | hmem
            · cases heq
              exact Or.inl (congrArg _ hlisted)
            · exact Or.inr ⟨other, hmem, hlist', hlisted⟩

/-- All files and links of a directory can be listed. -/
theorem mem_listedEntries_of_not_directory (h : node.isDirectory = false) :
    (name, node) ∈ fs.listedEntries path place entries ↔ (name, node) ∈ entries := by
  rw [mem_listedEntries]
  constructor
  · intro hlisted
    obtain ⟨whole, hmem, -, hnode⟩ := hlisted
    rw [hnode, isDirectory_listed] at h
    rwa [hnode, listed_of_not_directory h]
  · intro hmem
    refine ⟨node, hmem, fun hdirectory => ?_, (listed_of_not_directory h).symm⟩
    rw [h] at hdirectory
    cases hdirectory

/-- A directory that can be listed is one that may be. -/
theorem mem_listedEntries_directory {inner : List (String × Node)} :
    (name, .directory inner) ∈ fs.listedEntries path place entries
      ↔ ∃ whole, (name, .directory whole) ∈ entries
        ∧ fs.mayList (join path name) (name :: place) = true
        ∧ inner = fs.listedEntries (join path name) (name :: place) whole := by
  rw [mem_listedEntries]
  constructor
  · intro ⟨node, hmem, hlist, hnode⟩
    cases node with
    | directory whole =>
        rw [FileSystem.listed] at hnode
        exact ⟨whole, hmem, hlist rfl, Node.directory.inj hnode⟩
    | file _ | link _ => simp [FileSystem.listed] at hnode
  · intro ⟨whole, hmem, hlist, hinner⟩
    exact ⟨.directory whole, hmem, fun _ => hlist, by rw [FileSystem.listed, hinner]⟩

theorem names_listedEntries_sublist :
    ((fs.listedEntries path place entries).map Prod.fst).Sublist (entries.map Prod.fst) := by
  induction entries with
  | nil => simp [FileSystem.listedEntries]
  | cons entry rest ih =>
      obtain ⟨first, whole⟩ := entry
      rw [FileSystem.listedEntries]
      split
      · exact ih.cons first
      · exact ih.cons_cons first

/-- What can be listed of a well-named tree is well-named. -/
theorem Node.WellNamed.listed (h : node.WellNamed) :
    (fs.listed path place node).WellNamed := by
  induction h generalizing path place with
  | file content =>
      rw [FileSystem.listed]
      · exact .file content
      · simp
  | link target =>
      rw [FileSystem.listed]
      · exact .link target
      · simp
  | directory hdistinct hproper _ ih =>
      rw [FileSystem.listed]
      refine .directory (hdistinct.sublist names_listedEntries_sublist) ?_ ?_
      · intro ⟨name, node⟩ hmem
        obtain ⟨whole, hwhole, -⟩ := mem_listedEntries.1 hmem
        exact hproper (name, whole) hwhole
      · intro ⟨name, node⟩ hmem
        obtain ⟨whole, hwhole, -, rfl⟩ := mem_listedEntries.1 hmem
        exact ih (name, whole) hwhole

/-! ## Trees -/

/-- A tree can be listed below a path to a directory that may be listed. -/
theorem FileSystem.tree_eq_ok_iff : fs.tree path = .ok contents
    ↔ ∃ place entries, fs.find path true = .ok (.node place (.directory entries))
      ∧ fs.mayList path place = true ∧ fs.listedEntries path place entries = contents := by
  rw [FileSystem.tree]
  cases fs.find path true with
  | error e => simp
  | ok found =>
      cases found with
      | vacant directory name => simp
      | node place node =>
          cases node with
          | file _ | link _ => simp
          | directory entries =>
              by_cases hlong : pathLimit ≤ path.utf8ByteSize
              · simp [FileSystem.mayList, hlong, Nat.not_lt.2 hlong]
              · by_cases hclosed : fs.closed place
                · simp [FileSystem.mayList, hlong, hclosed]
                · simp [FileSystem.mayList, hlong, hclosed, Nat.not_le.1 hlong]

theorem FileSystem.node_of_tree (h : fs.tree path = .ok contents) :
    ∃ entries, fs.node path = .ok (.directory entries) := by
  obtain ⟨place, entries, hfind, -, -⟩ := tree_eq_ok_iff.1 h
  exact ⟨entries, FileSystem.node_of_find hfind⟩

/-- Below a path to a directory there is a tree to list, unless the directory may not be listed. -/
theorem FileSystem.tree_of_node (h : fs.node path = .ok (.directory entries))
    (hshort : path.utf8ByteSize < pathLimit) :
    (∃ contents, fs.tree path = .ok contents) ∨ fs.tree path = .error .permissionDenied := by
  unfold FileSystem.node at h
  split at h
  · next place node hfind =>
      cases h
      by_cases hclosed : fs.closed place
      · exact Or.inr (by simp [FileSystem.tree, hfind, hclosed, hshort])
      · exact Or.inl ⟨_, tree_eq_ok_iff.2
          ⟨place, entries, hfind, by simp [FileSystem.mayList, hclosed, hshort], rfl⟩⟩
  · cases h
  · cases h

/-- What can be listed in a well-named tree is well-named. -/
theorem FileSystem.wellNamed_of_tree (hroot : fs.root.WellNamed) (h : fs.tree path = .ok contents) :
    Usable path ∧ (Node.directory contents).WellNamed := by
  obtain ⟨place, entries, hfind, -, rfl⟩ := tree_eq_ok_iff.1 h
  obtain ⟨husable, hentries⟩ :=
    FileSystem.wellNamed_of_node hroot (FileSystem.node_of_find hfind)
  have hlisted : (fs.listed path place (.directory entries)).WellNamed := hentries.listed
  rw [FileSystem.listed] at hlisted
  exact ⟨husable, hlisted⟩

end WikiPress.Files
