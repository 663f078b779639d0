import WikiPress.Proofs.Sync.Identity

/-!
# WikiPress.Proofs.Sync.ClosedHierarchy

The documents of a scan, in the order it gives them.

Where the source directory can be listed, its index is the only document at the top, and every
other document comes after the index it is below (`closedHierarchy_of_scan`).

Design points:

* The identities need not be different, and the names of the tree need not be proper. So the
  document above is told by its place, and not by its identity alone.
* That it comes before is a matter of levels only: the list is in order, and the document above
  is of a smaller level (`mem_before_of_level_lt`).
-/

namespace WikiPress.Sync

open WikiPress.Files (FileSystem Node Place)

/-- Whether a document is an index that is below nothing. -/
structure Document.IsTop (document : Document) : Prop where
  isIndex : document.isIndex = true
  level : document.level = 0
  parentIdentity : document.parentIdentity = ""
  parentTitle : document.parentTitle = ""

/-- Whether one document is the index that another says it is below. -/
structure Document.IsAbove (parent document : Document) : Prop where
  isIndex : parent.isIndex = true
  identity : parent.identity = document.parentIdentity
  level : parent.level + 1 = document.level
  title : parent.title = document.parentTitle

/-- Documents in the order of publication with one at the top, each other one after the index it
is below. -/
structure ClosedHierarchy (documents : List Document) : Prop where
  top : ∃ root rest, documents = root :: rest ∧ root.IsTop ∧ ∀ d ∈ rest, d.level ≠ 0
  above : ∀ before document after, documents = before ++ document :: after →
    document.level ≠ 0 →
      document.parentIdentity ≠ "" ∧ ∃ parent ∈ before, parent.IsAbove document
  sorted : documents.Pairwise fun a b =>
    a.level < b.level ∨ a.level = b.level ∧ a.identity ≤ b.identity

/-! ## Levels -/

/-- The only document at the top comes first. -/
theorem eq_cons_of_top {documents others : List Document} {root : Document}
    (hsorted : documents.Pairwise fun a b => a.precedes b)
    (hperm : documents.Perm (root :: others)) (hroot : root.level = 0)
    (hothers : ∀ d ∈ others, d.level ≠ 0) :
    ∃ rest, documents = root :: rest ∧ ∀ d ∈ rest, d.level ≠ 0 := by
  cases documents with
  | nil => exact absurd hperm (List.not_perm_nil_cons _ _)
  | cons first rest =>
      -- the first is of the smallest level there is
      have hlevel : first.level = 0 := by
        rcases List.mem_cons.1 (hperm.mem_iff.2 List.mem_cons_self) with rfl | hlater
        · exact hroot
        · have hle := level_le_of_precedes ((List.pairwise_cons.1 hsorted).1 _ hlater)
          omega
      obtain rfl : first = root := by
        rcases List.mem_cons.1 (hperm.mem_iff.1 List.mem_cons_self) with heq | hother
        · exact heq
        · exact absurd hlevel (hothers _ hother)
      have hrest : rest.Perm others := (List.perm_cons _).1 hperm
      exact ⟨rest, rfl, fun d hd => hothers d (hrest.mem_iff.1 hd)⟩

/-! ## The scan -/

namespace Scanner

variable {scanner : Scanner} {fs : FileSystem} {contents entries outer : Keyed Node}
  {place : Files.Place} {name : String}

/-- The index of the source directory is at the top. -/
theorem isTop_indexAt : (scanner.indexAt [] entries).IsTop := ⟨rfl, rfl, rfl, rfl⟩

/-- The index of a directory is below the index of the directory around it. -/
theorem isAbove_indexAt :
    (scanner.indexAt place outer).IsAbove (scanner.indexAt (name :: place) entries) :=
  ⟨rfl, rfl, rfl, rfl⟩

/-- A page beside an index is below it. -/
theorem isAbove_childAt :
    (scanner.indexAt place entries).IsAbove (scanner.childAt place name) :=
  ⟨rfl, rfl, rfl, rfl⟩

/-- What is found in a directory is of its level or of a greater one. -/
theorem le_level_of_mem_documentsOf {folder : Folder} {node : Node} {document : Document}
    (h : document ∈ scanner.documentsOf folder node) : folder.level ≤ document.level := by
  cases node with
  | directory inner =>
      obtain ⟨place, entries, _, hown⟩ := mem_documentsOf_iff.1 h
      have hplace : folder.level ≤ (scanner.folderAt folder place).level := by
        rw [level_folderAt]
        exact Nat.le_add_right _ _
      rcases List.mem_cons.1 hown with rfl | hchild
      · exact hplace
      · obtain ⟨name, _, _, _, rfl⟩ := mem_childDocuments.1 hchild
        exact Nat.le_succ_of_le hplace
  | file _ | link _ => simp [documentsOf] at h

/-- All documents of a directory but its index are of greater levels. -/
theorem level_ne_zero_of_mem {document : Document}
    (h : document ∈ scanner.childDocuments scanner.rootFolder contents
      ++ scanner.documentsBelow scanner.rootFolder contents) : document.level ≠ 0 := by
  rcases List.mem_append.1 h with hchild | hbelow
  · obtain ⟨name, _, _, _, rfl⟩ := mem_childDocuments.1 hchild
    exact Nat.succ_ne_zero _
  · obtain ⟨name, node, _, _, _, hdocument⟩ := mem_documentsBelow.1 hbelow
    exact Nat.ne_zero_of_lt (le_level_of_mem_documentsOf hdocument)

/-- The index of the source directory is the only document of a scan at the top. -/
theorem exists_scan_eq_cons
    (htree : fs.tree scanner.sourceDirectory = .ok contents) :
    ∃ rest, scanner.scan fs = .ok (scanner.indexAt [] contents :: rest)
      ∧ ∀ d ∈ rest, d.level ≠ 0 := by
  have hperm := inOrder_perm (scanner.documentsOf scanner.rootFolder (.directory contents))
  rw [documentsOf] at hperm
  obtain ⟨rest, hrest, hlevels⟩ := eq_cons_of_top (pairwise_inOrder _)
    (hperm.trans List.perm_middle) rfl fun _ => level_ne_zero_of_mem
  refine ⟨rest, ?_, hlevels⟩
  rw [scan_eq_ok htree, documentsOf, hrest]
  rfl

/-- A document of a scan that is not at the top is below the index of a page directory. -/
theorem exists_isAbove {documents : List Document} {document : Document}
    (hindex : scanner.indexName ≠ "")
    (htree : fs.tree scanner.sourceDirectory = .ok contents)
    (hscan : scanner.scan fs = .ok documents) (hmem : document ∈ documents)
    (hlevel : document.level ≠ 0) :
    document.parentIdentity ≠ "" ∧ ∃ parent ∈ documents, parent.IsAbove document := by
  obtain ⟨place, entries, hdirectory, rfl | ⟨name, _, _, _, rfl⟩⟩ :=
    (mem_scan_iff htree hscan).1 hmem
  · cases hdirectory with
    | source => exact absurd rfl hlevel
    | @inside place outer _ name houter _ _ _ =>
        exact ⟨identityIn_ne_empty hindex, scanner.indexAt place outer,
          (mem_scan_iff htree hscan).2 ⟨place, outer, houter, Or.inl rfl⟩, isAbove_indexAt⟩
  · exact ⟨identityIn_ne_empty hindex, scanner.indexAt place entries,
      (mem_scan_iff htree hscan).2 ⟨place, entries, hdirectory, Or.inl rfl⟩, isAbove_childAt⟩

end Scanner

/-- A source directory with everything in it that a scan tells apart: hidden names, an attachments
folder and a link called like one, a directory called as an index is, and a page that is a
link. -/
def handbookContents : Keyed Node := [
  ("intro.md", .file .empty),
  ("guide", .directory [
    ("shot.png", .file .empty), ("assets", .link ".."), ("setup.md", .link "gone")]),
  ("assets", .directory [
    ("logo.png", .file .empty), ("notes.md", .file .empty), (".cache", .file .empty)]),
  (".git", .directory [("log.md", .file .empty)]),
  ("index.md", .directory [("deep", .directory []), ("index.md", .file .empty)])]

def handbook : FileSystem := docs handbookContents

/-- A scan with a usable index name gives a closed hierarchy, whatever the tree is that can be
listed. -/
theorem closedHierarchy_of_scan {scanner : Scanner} {fs : FileSystem} {contents : Keyed Node}
    (hindex : scanner.indexName ≠ "") (htree : fs.tree scanner.sourceDirectory = .ok contents) :
    ∃ documents, scanner.scan fs = .ok documents ∧ ClosedHierarchy documents := by
  obtain ⟨rest, hscan, hlevels⟩ := Scanner.exists_scan_eq_cons htree
  have hsorted : (scanner.indexAt [] contents :: rest).Pairwise fun a b => a.precedes b := by
    have hordered := Scanner.scan_eq_ok htree
    rw [hscan] at hordered
    rw [Except.ok.inj hordered]
    exact pairwise_inOrder _
  refine ⟨_, hscan, ⟨_, rest, rfl, Scanner.isTop_indexAt, hlevels⟩,
    fun before document after hsplit hlevel => ?_, hsorted.imp precedes_iff.1⟩
  have hmem : document ∈ scanner.indexAt [] contents :: rest := by
    rw [hsplit]
    exact List.mem_append_right _ List.mem_cons_self
  obtain ⟨hparent, parent, hfound, habove⟩ :=
    Scanner.exists_isAbove hindex htree hscan hmem hlevel
  have hless : parent.level < document.level := habove.level ▸ Nat.lt_succ_self _
  exact ⟨hparent, parent, mem_before_of_level_lt hsorted hsplit hfound hless, habove⟩

theorem tree_handbook : handbook.tree "docs" = .ok handbookContents := tree_docs rfl

/-- The handbook has the source directory's page, those of three directories and two others. -/
theorem closedHierarchy_of_scan_handbook :
    Scanner.indexName { sourceDirectory := "docs" } ≠ ""
      ∧ handbook.tree "docs" = .ok handbookContents
      ∧ ∃ documents, Scanner.scan { sourceDirectory := "docs" } handbook = .ok documents
        ∧ documents.length = 6 ∧ ClosedHierarchy documents := by
  have hindex : Scanner.indexName { sourceDirectory := "docs" } ≠ "" := by decide
  have htree : handbook.tree (Scanner.sourceDirectory { sourceDirectory := "docs" })
      = .ok handbookContents := tree_handbook
  obtain ⟨documents, hscan, hclosed⟩ := closedHierarchy_of_scan hindex htree
  refine ⟨hindex, htree, documents, hscan, ?_, hclosed⟩
  rw [Scanner.scan_eq_ok htree] at hscan
  rw [← Except.ok.inj hscan, (inOrder_perm _).length_eq]
  decide +kernel

/-- The handbook with one directory that may not be listed. -/
def handbookWithout (place : Place) : FileSystem :=
  { handbook with closed := fun other => other == place }

theorem find_handbookWithout (place : Place) : (handbookWithout place).find "docs" true
    = .ok (.node ["docs"] (.directory handbookContents)) :=
  find_docs handbookContents

theorem node_handbookWithout (place : Place) :
    (handbookWithout place).node "docs" = .ok (.directory handbookContents) :=
  FileSystem.node_of_find (find_handbookWithout place)

theorem scan_handbookWithout_docs :
    Scanner.scan { sourceDirectory := "docs" } (handbookWithout ["docs"]) = .ok [] := by
  have hdenied : (handbookWithout ["docs"]).tree
      (Scanner.sourceDirectory { sourceDirectory := "docs" }) = .error .permissionDenied := by
    simp only [FileSystem.tree, find_handbookWithout]
    rw [if_neg (by decide), if_pos (by decide)]
  exact Scanner.scan_of_denied hdenied

/-- A source directory that may not be listed has no documents, and so none at the top. -/
theorem not_closedHierarchy_of_closed :
    Scanner.indexName { sourceDirectory := "docs" } ≠ ""
      ∧ (handbookWithout ["docs"]).isDirectory "docs" = true
      ∧ Scanner.scan { sourceDirectory := "docs" } (handbookWithout ["docs"]) = .ok []
      ∧ ¬ ClosedHierarchy [] := by
  have hthere := Files.FileSystem.isDirectory_iff.2 ⟨_, node_handbookWithout ["docs"]⟩
  refine ⟨by decide, hthere, scan_handbookWithout_docs, fun h => ?_⟩
  obtain ⟨root, rest, hnone, -⟩ := h.top
  cases hnone

end WikiPress.Sync
