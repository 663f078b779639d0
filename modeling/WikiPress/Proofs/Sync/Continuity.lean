import WikiPress.Proofs.Sync.Identity

/-!
# WikiPress.Proofs.Sync.Continuity

What an identity says of a document, from one scan to another.

Trees and settings may change between two scans. As long as the index name stays the same, a
document that comes again under its identity is again an index or again a page beside one. It
has its title again, unless it is at the top and the root title is another (`Scanned.title_eq`).

Design points:

* A page may take over the identity of an index only where the index name leads to the page.
  Then the index is still there, and the two have one identity in one scan
  (`Scanned.isIndex_of_identity`). So it is enough that identities are different in each scan.
-/

namespace WikiPress.Sync

open WikiPress.Files (FileSystem Node Place ProperName)

/-- Documents of a scan of a tree of proper names, with different identities. -/
structure Scanned (scanner : Scanner) (fs : FileSystem) (documents : List Document) : Prop where
  wellNamed : fs.root.WellNamed
  scanned : scanner.scan fs = .ok documents
  distinct : (documents.map Document.identity).Nodup

namespace Scanned

variable {scanner other : Scanner} {fs later : FileSystem} {documents found : List Document}
  {document again : Document} {place : Place}

/-- The directory that was scanned. -/
theorem exists_contents (h : Scanned scanner fs documents) (hmem : document ∈ documents) :
    ∃ contents, fs.tree scanner.sourceDirectory = .ok contents
      ∧ (Node.directory contents).WellNamed := by
  obtain ⟨contents, hcontents⟩ := Scanner.exists_tree h.scanned hmem
  obtain ⟨_, hwellNamed⟩ := FileSystem.wellNamed_of_tree h.wellNamed hcontents
  exact ⟨contents, hcontents, hwellNamed⟩

theorem hierarchy (h : Scanned scanner fs documents) : Hierarchy documents :=
  hierarchy_of_scan h.scanned h.distinct

/-- What a document is: the index of a place, or a page beside one. -/
theorem cases (h : Scanned scanner fs documents) (hmem : document ∈ documents) :
    (∃ place entries, (∀ name ∈ place, ProperName name)
        ∧ document = scanner.indexAt place entries)
      ∨ ∃ place name, (∀ name ∈ place, ProperName name) ∧ ProperName name
        ∧ document = scanner.childAt place name := by
  obtain ⟨contents, hcontents, hwellNamed⟩ := h.exists_contents hmem
  obtain ⟨place, entries, hdirectory, rfl | ⟨name, hfile, _, _, rfl⟩⟩ :=
    (Scanner.mem_scan_iff hcontents h.scanned).1 hmem
  · exact Or.inl ⟨place, entries, hdirectory.properNames hwellNamed, rfl⟩
  · exact Or.inr ⟨place, name, hdirectory.properNames hwellNamed,
      hfile.properName (hdirectory.wellNamed hwellNamed), rfl⟩

/-- What has the identity of an index is an index. -/
theorem isIndex_of_identity (h : Scanned scanner fs documents) (hmem : document ∈ documents)
    (hplace : ∀ name ∈ place, ProperName name)
    (hidentity : document.identity = identityOf (scanner.indexName :: place)) :
    document.isIndex = true := by
  obtain ⟨contents, hcontents, hwellNamed⟩ := h.exists_contents hmem
  obtain ⟨further, entries, hdirectory, rfl | ⟨name, hfile, _, _, rfl⟩⟩ :=
    (Scanner.mem_scan_iff hcontents h.scanned).1 hmem
  · rfl
  · have hname := hfile.properName (hdirectory.wellNamed hwellNamed)
    have hway := hidentity
    rw [Scanner.identity_childAt,
      identityOf_eq_iff hname hplace (hdirectory.properNames hwellNamed)] at hway
    obtain ⟨inward, rfl, _⟩ := hway
    -- the directory at the place is there, and so is its index
    obtain ⟨outer, houter⟩ := hdirectory.around
    have hindex : scanner.indexAt place outer ∈ documents :=
      (Scanner.mem_scan_iff hcontents h.scanned).2 ⟨place, outer, houter, Or.inl rfl⟩
    rw [List.inj_on_of_nodup_map h.distinct hmem hindex
      (hidentity.trans Scanner.identity_indexAt.symm)]
    rfl

/-- A page beside an index has no files published with it. -/
theorem attachments_eq_nil (h : Scanned scanner fs documents) (hmem : document ∈ documents)
    (hkind : document.isIndex = false) : document.attachments = [] := by
  rcases h.cases hmem with ⟨place, entries, _, rfl⟩ | ⟨place, name, _, _, rfl⟩
  · cases hkind
  · rfl

section Again

variable (h : Scanned scanner fs documents) (hagain : Scanned other later found)
  (hindexName : other.indexName = scanner.indexName) (hmem : document ∈ documents)
  (hfound : again ∈ found) (hidentity : again.identity = document.identity)

include h hagain hindexName hmem hfound hidentity

/-- A document comes again as what it was. -/
theorem isIndex_eq : again.isIndex = document.isIndex := by
  rcases h.cases hmem with ⟨place, entries, hplace, rfl⟩ | ⟨place, name, hplace, _, rfl⟩
  · refine hagain.isIndex_of_identity hfound hplace ?_
    rw [hidentity, Scanner.identity_indexAt, hindexName]
  · rcases hagain.cases hfound with ⟨place', entries', hplace', rfl⟩ | ⟨_, _, _, _, rfl⟩
    · have hindex := h.isIndex_of_identity hmem hplace' (by
        rw [← hidentity, Scanner.identity_indexAt, hindexName])
      exact hindex.symm
    · rfl

/-- A document comes again with the title it had, unless the title is the root title. -/
theorem title_eq (hrootTitle : document.level = 0 → other.rootTitle = scanner.rootTitle) :
    again.title = document.title := by
  have hkind := isIndex_eq h hagain hindexName hmem hfound hidentity
  rcases h.cases hmem with ⟨place, entries, hplace, rfl⟩ | ⟨place, name, hplace, hname, rfl⟩
  · rcases hagain.cases hfound with ⟨place', entries', hplace', rfl⟩ | ⟨_, _, _, _, rfl⟩
    · rw [Scanner.identity_indexAt, Scanner.identity_indexAt, hindexName] at hidentity
      obtain rfl := place_eq_of_identityOf_eq hplace' hplace hidentity
      cases place' with
      | nil => exact hrootTitle Scanner.level_indexAt
      | cons name rest => rfl
    · cases hkind
  · rcases hagain.cases hfound with ⟨_, _, _, rfl⟩ | ⟨place', name', hplace', hname', rfl⟩
    · cases hkind
    · rw [Scanner.identity_childAt, Scanner.identity_childAt] at hidentity
      obtain ⟨rfl, _⟩ := eq_of_identityOf_eq hname' hname hplace' hplace hidentity
      rfl

end Again

end Scanned

/-- The documents of a source directory to try scans with. -/
theorem scanned_docs {scanner : Scanner} {contents : Keyed Node} {documents : List Document}
    (hsource : scanner.sourceDirectory = "docs") (hwellNamed : (Node.directory contents).WellNamed)
    (hlisted : (docs contents).listedEntries "docs" ["docs"] contents = contents)
    (hfound : scanner.documentsOf scanner.rootFolder (.directory contents) = documents)
    (hordered : documents.Pairwise fun a b => a.precedes b)
    (hdistinct : (documents.map Document.identity).Nodup) :
    Scanned scanner (docs contents) documents where
  wellNamed := by
    have hname : ProperName "docs" := by decide
    exact .directory (List.nodup_singleton _) (by simp [hname]) (by simp [hwellNamed])
  scanned := by rw [scan_docs hsource hlisted, hfound, inOrder_of_pairwise hordered]
  distinct := hdistinct

end WikiPress.Sync
