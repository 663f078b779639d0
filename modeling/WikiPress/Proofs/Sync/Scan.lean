import WikiPress.Proofs.Files.Listed
import WikiPress.Proofs.Sync.Hierarchy
import WikiPress.Sync.Scan

/-!
# WikiPress.Proofs.Sync.Scan

Where the documents of a scan come from.

Design points:

* `Visits` is the way a scan takes down a tree of directories. The names it went by are kept
  in front of those before, as places are.
* A document of a scan belongs to one directory that was visited (`mem_scan`): it is the
  directory's index, or a Markdown file beside it.
* A directory that is visited is the top or lies in another one that is, whose index is above
  its own. So the documents form a tree (`hierarchy_of_scan`).
-/

namespace WikiPress.Sync

open WikiPress.Files (FileSystem Node)

/-! ## The directories of a scan -/

/-- A scan that starts at one directory comes to another, by these names. -/
inductive Visits (scanner : Scanner) (start : Folder) (contents : Keyed Node) :
    List String → Folder → Keyed Node → Prop
  /-- It starts there. -/
  | top : Visits scanner start contents [] start contents
  /-- It goes into a directory that is neither hidden nor for attachments. -/
  | into {names : List String} {folder : Folder} {entries inner : Keyed Node} {name : String} :
      Visits scanner start contents names folder entries →
      (name, Node.directory inner) ∈ entries →
      isHidden name = false → name ≠ scanner.attachmentsFolder →
      Visits scanner start contents (name :: names) (scanner.subfolder folder name) inner

namespace Scanner

variable {scanner : Scanner} {folder start : Folder} {entries contents : Keyed Node}
  {document : Document} {names : List String}

/-- The documents a directory has of its own. -/
def documentsAt (scanner : Scanner) (folder : Folder) (entries : Keyed Node) : List Document :=
  scanner.indexDocument folder entries :: scanner.childDocuments folder entries

/-- What is below a directory is in one of those it holds. -/
theorem mem_documentsBelow :
    document ∈ scanner.documentsBelow folder entries ↔
      ∃ name node, (name, node) ∈ entries ∧ isHidden name = false
        ∧ name ≠ scanner.attachmentsFolder
        ∧ document ∈ scanner.documentsOf (scanner.subfolder folder name) node := by
  induction entries with
  | nil => simp [documentsBelow]
  | cons entry rest ih =>
      obtain ⟨name, node⟩ := entry
      rw [documentsBelow]
      split
      · next hskipped =>
          rw [ih]
          constructor
          · rintro ⟨name', node', hmem, hrest⟩
            exact ⟨name', node', List.mem_cons_of_mem _ hmem, hrest⟩
          · rintro ⟨name', node', hmem, hhidden, hfolder, hdocument⟩
            rcases List.mem_cons.1 hmem with heq | hmem
            · cases heq
              simp [hhidden, hfolder] at hskipped
            · exact ⟨name', node', hmem, hhidden, hfolder, hdocument⟩
      · next htaken =>
          rw [Bool.or_eq_true, not_or, Bool.not_eq_true, beq_iff_eq] at htaken
          rw [List.mem_append, ih]
          constructor
          · rintro (hdocument | ⟨name', node', hmem, hrest⟩)
            · exact ⟨name, node, List.mem_cons_self, htaken.1, htaken.2, hdocument⟩
            · exact ⟨name', node', List.mem_cons_of_mem _ hmem, hrest⟩
          · rintro ⟨name', node', hmem, hhidden, hfolder, hdocument⟩
            rcases List.mem_cons.1 hmem with heq | hmem
            · cases heq
              exact Or.inl hdocument
            · exact Or.inr ⟨name', node', hmem, hhidden, hfolder, hdocument⟩

theorem mem_documentsOf_directory :
    document ∈ scanner.documentsOf folder (.directory entries) ↔
      document ∈ scanner.documentsAt folder entries
        ∨ document ∈ scanner.documentsBelow folder entries := by
  simp only [documentsOf, documentsAt, List.mem_append, List.mem_cons]
  tauto

/-- A document that is found lies in a directory that is visited. -/
theorem visits_of_mem_documentsOf {names : List String} {folder : Folder} {entries : Keyed Node}
    (hvisits : Visits scanner start contents names folder entries)
    (h : document ∈ scanner.documentsOf folder (.directory entries)) :
    ∃ names folder entries, Visits scanner start contents names folder entries
      ∧ document ∈ scanner.documentsAt folder entries := by
  rcases mem_documentsOf_directory.1 h with hown | hbelow
  · exact ⟨names, folder, entries, hvisits, hown⟩
  · obtain ⟨name, node, hmem, hhidden, hfolder, hdocument⟩ := mem_documentsBelow.1 hbelow
    cases node with
    | directory inner =>
        exact visits_of_mem_documentsOf (.into hvisits hmem hhidden hfolder) hdocument
    | file _ | link _ => simp [documentsOf] at hdocument
  termination_by sizeOf entries
  decreasing_by
    have hsmaller := List.sizeOf_lt_of_mem hmem
    simp only [Prod.mk.sizeOf_spec, Node.directory.sizeOf_spec] at hsmaller
    omega

/-- What a directory that is visited has below it is found. -/
theorem documentsOf_subset (h : Visits scanner start contents names folder entries) :
    scanner.documentsOf folder (.directory entries)
      ⊆ scanner.documentsOf start (.directory contents) := by
  induction h with
  | top => exact List.Subset.refl _
  | into hvisits hmem hhidden hfolder ih =>
      intro document hdocument
      exact ih (mem_documentsOf_directory.2 (Or.inr (mem_documentsBelow.2
        ⟨_, _, hmem, hhidden, hfolder, hdocument⟩)))

/-- A source directory that can be listed is scanned. -/
theorem scan_eq_ok {fs : FileSystem} (h : fs.tree scanner.sourceDirectory = .ok contents) :
    scanner.scan fs
      = .ok (inOrder (scanner.documentsOf scanner.rootFolder (.directory contents))) := by
  rw [scan, h]

/-- A source directory that may not be listed has no documents. -/
theorem scan_of_denied {fs : FileSystem}
    (h : fs.tree scanner.sourceDirectory = .error .permissionDenied) :
    scanner.scan fs = .ok [] := by
  rw [scan, h]

/-- Where documents are found, there is a tree to list. -/
theorem exists_tree {fs : FileSystem} {documents : List Document}
    (h : scanner.scan fs = .ok documents) (hmem : document ∈ documents) :
    ∃ contents, fs.tree scanner.sourceDirectory = .ok contents := by
  unfold scan at h
  split at h
  · next contents htree => exact ⟨contents, htree⟩
  · cases h
    cases hmem
  · cases h

/-- A scan finds the documents of the directories it visits, and no others. -/
theorem mem_scan {fs : FileSystem} {documents : List Document}
    (htree : fs.tree scanner.sourceDirectory = .ok contents)
    (h : scanner.scan fs = .ok documents) : document ∈ documents
      ↔ ∃ names folder entries, Visits scanner scanner.rootFolder contents names folder entries
        ∧ document ∈ scanner.documentsAt folder entries := by
  rw [scan_eq_ok htree] at h
  cases h
  rw [mem_inOrder]
  constructor
  · exact visits_of_mem_documentsOf .top
  · rintro ⟨names, folder, entries, hvisits, hdocument⟩
    exact documentsOf_subset hvisits (mem_documentsOf_directory.2 (Or.inl hdocument))

end Scanner

/-! ## The tree of documents -/

/-- The documents of a scan form a tree, if their names are different. -/
theorem hierarchy_of_scan {scanner : Scanner} {fs : FileSystem} {documents : List Document}
    (h : scanner.scan fs = .ok documents)
    (hdistinct : (documents.map Document.identity).Nodup) : Hierarchy documents := by
  refine ⟨hdistinct, fun document hdocument habove => ?_⟩
  obtain ⟨contents, htree⟩ := Scanner.exists_tree h hdocument
  obtain ⟨names, folder, entries, hvisits, hown⟩ := (Scanner.mem_scan htree h).1 hdocument
  rcases List.mem_cons.1 hown with rfl | hchild
  -- the index of a directory is below the index of the directory around it
  · cases hvisits with
    | top => exact absurd rfl habove
    | @into _ around outer _ _ hvisits _ _ _ =>
        exact ⟨scanner.indexDocument around outer,
          (Scanner.mem_scan htree h).2 ⟨_, _, _, hvisits, List.mem_cons_self⟩, rfl,
          Nat.lt_succ_self _⟩
  · obtain ⟨⟨name, node⟩, _, rfl⟩ := List.mem_map.1 hchild
    exact ⟨scanner.indexDocument folder entries,
      (Scanner.mem_scan htree h).2 ⟨names, folder, entries, hvisits, List.mem_cons_self⟩, rfl,
      Nat.lt_succ_self _⟩

/-! ## Directories to try scans with -/

/-- A source directory with the given contents. -/
def docs (contents : Keyed Node) : FileSystem :=
  { root := .directory [("docs", .directory contents)], workingDirectory := [] }

theorem find_docs (contents : Keyed Node) :
    (docs contents).find "docs" true = .ok (.node ["docs"] (.directory contents)) :=
  Files.find_of_names ["docs"] ⟨by decide, by decide⟩ (by decide) rfl (by decide) rfl (by simp)

theorem tree_docs {contents : Keyed Node}
    (h : (docs contents).listedEntries "docs" ["docs"] contents = contents) :
    (docs contents).tree "docs" = .ok contents :=
  FileSystem.tree_eq_ok_iff.2 ⟨["docs"], contents, find_docs contents, rfl, h⟩

theorem scan_docs {contents : Keyed Node} {scanner : Scanner}
    (h : scanner.sourceDirectory = "docs")
    (hlisted : (docs contents).listedEntries "docs" ["docs"] contents = contents) :
    scanner.scan (docs contents)
      = .ok (inOrder (scanner.documentsOf scanner.rootFolder (.directory contents))) :=
  Scanner.scan_eq_ok (h ▸ tree_docs hlisted)

end WikiPress.Sync
