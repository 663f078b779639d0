import Mathlib.Data.List.Pairwise
import WikiPress.Proofs.Files.Replace
import WikiPress.Proofs.Sync.Identity

/-!
# WikiPress.Proofs.Sync.Listing

A scan does not depend on the order in which directories are listed.

Two trees hold the same if the same names lead to nodes that are alike (`SameTree`). A scan of
the one finds what a scan of the other finds, with the same files published with each page; and
what is found has one order (`scan_of_sameTree`).

Design points:

* What a page publishes is put in order by name. So it is enough that every name in the one
  directory gives what it gives in the other (`Keyed.map_sorted_congr`).
* Documents that come equal in the order of publication are one document, although two documents
  may have one identity: they are of different levels then (`eq_of_precedes`).
-/

namespace WikiPress.Sync

open WikiPress.Files (FileSystem Node Alike Place join)

/-- Whether two trees hold the same, in whatever order their directories are listed. -/
def SameTree (node other : Node) : Prop :=
  ∀ names, Option.Rel Alike (Node.at? names node) (Node.at? names other)

variable {entries others contents listed : Keyed Node} {name attachmentsFolder : String}
  {place : Place}

namespace SameTree

theorem isDirectory {node other : Node} (h : SameTree node other) :
    node.isDirectory = other.isDirectory := by
  have halike := h []
  cases halike with
  | some halike => cases halike <;> rfl

/-- Every name in a directory leads to the same in the other. -/
theorem find? (h : SameTree (.directory entries) (.directory others)) (name : String) :
    Option.Rel SameTree (Keyed.find? name entries) (Keyed.find? name others) := by
  have hname : ∀ names, Option.Rel Alike ((Keyed.find? name entries).bind (Node.at? names))
      ((Keyed.find? name others).bind (Node.at? names)) := fun names => h (name :: names)
  have hhere := hname []
  cases hentry : Keyed.find? name entries <;> cases hother : Keyed.find? name others <;>
    rw [hentry, hother] at hhere hname
  · exact .none
  · cases hhere
  · cases hhere
  · exact .some hname

/-- What can be told of a node that holds the same, is told of the entries by their names. -/
theorem map_find? {β : Type} {view : Node → β}
    (hview : ∀ {node other : Node}, node.WellNamed → other.WellNamed → SameTree node other →
      view node = view other)
    (h : SameTree (.directory entries) (.directory others))
    (hentries : (Node.directory entries).WellNamed) (hothers : (Node.directory others).WellNamed)
    (name : String) : (Keyed.find? name entries).map view = (Keyed.find? name others).map view := by
  have hname := h.find? name
  cases hentries with | directory _ _ hinner =>
  cases hothers with | directory _ _ hinner' =>
  generalize hnode : Keyed.find? name entries = node at hname
  generalize hother : Keyed.find? name others = other at hname
  cases hname with
  | none => rfl
  | some hsame =>
      exact congrArg Option.some (hview (hinner _ (Keyed.mem_of_find? hnode))
        (hinner' _ (Keyed.mem_of_find? hother)) hsame)

/-- A directory in a directory is one in the other. -/
theorem exists_directory {inner : Keyed Node}
    (h : SameTree (.directory entries) (.directory others))
    (hentries : (Node.directory entries).WellNamed) (hmem : (name, .directory inner) ∈ entries) :
    ∃ within, (name, Node.directory within) ∈ others
      ∧ SameTree (.directory inner) (.directory within) := by
  cases hentries with
  | directory hdistinct _ _ =>
      have hname := h.find? name
      rw [(Keyed.find?_eq_some_iff_of_nodup hdistinct).2 hmem] at hname
      generalize hother : Keyed.find? name others = other at hname
      cases hname with
      | @some _ node hsame =>
          obtain ⟨within, rfl⟩ := Files.Node.isDirectory_iff.1 hsame.isDirectory.symm
          exact ⟨within, Keyed.mem_of_find? hother, hsame⟩

theorem symm {node other : Node} (h : SameTree node other) : SameTree other node := by
  intro names
  have halike := h names
  generalize Node.at? names node = a at halike
  generalize Node.at? names other = b at halike
  cases halike with
  | none => exact .none
  | some halike => exact .some (by cases halike <;> constructor)

end SameTree

/-- A directory listed in another order holds the same. -/
theorem sameTree_of_perm (h : entries.Perm others) (hentries : (Node.directory entries).WellNamed) :
    SameTree (.directory entries) (.directory others) := by
  cases hentries with | directory hdistinct _ _ =>
  have hfind : ∀ name, Keyed.find? name entries = Keyed.find? name others := by
    intro name
    refine Option.ext fun node => ?_
    rw [Keyed.find?_eq_some_iff_of_nodup hdistinct,
      Keyed.find?_eq_some_iff_of_nodup ((h.map _).nodup_iff.1 hdistinct), h.mem_iff]
  intro names
  cases names with
  | nil => exact .some (.directory _ _)
  | cons name rest => exact Files.alike_of_eq (congrArg (·.bind (Node.at? rest)) (hfind name))

theorem wellNamed_of_perm (h : entries.Perm others)
    (hentries : (Node.directory entries).WellNamed) : (Node.directory others).WellNamed := by
  cases hentries with
  | directory hdistinct hproper hinner =>
      exact .directory ((h.map _).nodup_iff.1 hdistinct)
        (fun entry hentry => hproper entry (h.mem_iff.2 hentry))
        (fun entry hentry => hinner entry (h.mem_iff.2 hentry))

/-! ## Directories and their files -/

theorem visibleFile_iff (hentries : (Node.directory entries).WellNamed) :
    VisibleFile entries name ↔ isHidden name = false
      ∧ (Keyed.find? name entries).map Node.isDirectory = some false := by
  cases hentries with
  | directory hdistinct _ _ =>
      simp only [VisibleFile, Option.map_eq_some_iff,
        Keyed.find?_eq_some_iff_of_nodup hdistinct]
      tauto

theorem SameTree.visibleFile_iff (h : SameTree (.directory entries) (.directory others))
    (hentries : (Node.directory entries).WellNamed) (hothers : (Node.directory others).WellNamed) :
    VisibleFile entries name ↔ VisibleFile others name := by
  rw [Sync.visibleFile_iff hentries, Sync.visibleFile_iff hothers,
    h.map_find? (fun _ _ => isDirectory) hentries hothers]

/-- The same directories become pages. -/
theorem SameTree.pageDirectory (h : SameTree (.directory contents) (.directory listed))
    (hcontents : (Node.directory contents).WellNamed)
    (hdirectory : PageDirectory attachmentsFolder contents place entries) :
    ∃ others, PageDirectory attachmentsFolder listed place others
      ∧ SameTree (.directory entries) (.directory others) := by
  induction hdirectory with
  | source => exact ⟨listed, .source, h⟩
  | inside hdirectory hmem hhidden hfolder ih =>
      obtain ⟨others, hothers, hsame⟩ := ih
      obtain ⟨within, hwithin, hinner⟩ :=
        hsame.exists_directory (hdirectory.wellNamed hcontents) hmem
      exact ⟨within, .inside hothers hwithin hhidden hfolder, hinner⟩

namespace Scanner

variable {scanner : Scanner} {folder : Folder} {path : String}

/-- The same files of an attachments folder are published. -/
theorem attachmentFiles_of_sameTree (h : SameTree (.directory entries) (.directory others))
    (hentries : (Node.directory entries).WellNamed) (hothers : (Node.directory others).WellNamed) :
    attachmentFiles path entries = attachmentFiles path others := by
  have hview : ∀ list : Keyed Node, attachmentFiles path list
      = (((Keyed.sorted list).map fun pair => (pair.1, pair.2.isDirectory)).filter
          fun pair => !isHidden pair.1 && !pair.2 && !isMarkdown pair.1).map
        fun pair => join path pair.1 := by
    intro list
    rw [List.filter_map, List.map_map]
    rfl
  rw [hview, hview, Keyed.map_sorted_congr (fun _ => Node.isDirectory) hentries.nodup
    hothers.nodup (h.map_find? (fun _ _ => SameTree.isDirectory) hentries hothers)]

theorem publishedAt_of_sameTree {node other : Node} (hnode : node.WellNamed)
    (hother : other.WellNamed) (h : SameTree node other) :
    scanner.publishedAt folder name node = scanner.publishedAt folder name other := by
  have halike := h []
  cases halike with
  | some halike =>
      cases halike with
      | file | link => rfl
      | directory => simp only [publishedAt, attachmentFiles_of_sameTree h hnode hother]

/-- The same files are published with the page of a directory. -/
theorem attachments_of_sameTree (h : SameTree (.directory entries) (.directory others))
    (hentries : (Node.directory entries).WellNamed) (hothers : (Node.directory others).WellNamed) :
    scanner.attachments folder entries = scanner.attachments folder others := by
  have hview : ∀ list : Keyed Node, scanner.attachments folder list
      = ((Keyed.sorted list).map fun pair =>
          (pair.1, scanner.publishedAt folder pair.1 pair.2)).flatMap Prod.snd := by
    intro list
    rw [attachments_eq_flatMap, List.flatMap_map]
  rw [hview, hview, Keyed.map_sorted_congr (scanner.publishedAt folder) hentries.nodup
    hothers.nodup fun name => h.map_find? publishedAt_of_sameTree hentries hothers name]

/-- A directory that holds the same has the same index. -/
theorem indexAt_of_sameTree (h : SameTree (.directory entries) (.directory others))
    (hentries : (Node.directory entries).WellNamed) (hothers : (Node.directory others).WellNamed) :
    scanner.indexAt place entries = scanner.indexAt place others := by
  have hindex : scanner.hasIndex entries = scanner.hasIndex others := by
    rw [Bool.eq_iff_iff, hasIndex_iff, hasIndex_iff, h.visibleFile_iff hentries hothers]
  rw [indexAt, indexAt, indexDocument, indexDocument, hindex,
    attachments_of_sameTree h hentries hothers]

end Scanner

/-! ## Scans -/

section Scan

variable {scanner : Scanner} {fs other : FileSystem} {documents found : List Document}

/-- What is found in a tree is found in one that holds the same. -/
theorem subset_of_sameTree (h : SameTree (.directory contents) (.directory listed))
    (hcontents : (Node.directory contents).WellNamed) (hlisted : (Node.directory listed).WellNamed)
    (htree : fs.tree scanner.sourceDirectory = .ok contents)
    (hother : other.tree scanner.sourceDirectory = .ok listed)
    (hscan : scanner.scan fs = .ok documents) (hfound : scanner.scan other = .ok found) :
    documents ⊆ found := by
  intro document hmem
  obtain ⟨place, entries, hdirectory, hdocument⟩ := (Scanner.mem_scan_iff htree hscan).1 hmem
  obtain ⟨others, hothers, hsame⟩ := h.pageDirectory hcontents hdirectory
  have hentries := hdirectory.wellNamed hcontents
  refine (Scanner.mem_scan_iff hother hfound).2 ⟨place, others, hothers, ?_⟩
  rcases hdocument with rfl | ⟨name, hfile, hne, hmarkdown, rfl⟩
  · exact Or.inl (Scanner.indexAt_of_sameTree hsame hentries (hothers.wellNamed hlisted))
  · exact Or.inr ⟨name, (hsame.visibleFile_iff hentries (hothers.wellNamed hlisted)).1 hfile, hne,
      hmarkdown, rfl⟩

section WellNamed

variable (hcontents : (Node.directory contents).WellNamed)
  (htree : fs.tree scanner.sourceDirectory = .ok contents)
  (hscan : scanner.scan fs = .ok documents)

include hcontents htree hscan

/-- No document is found twice. -/
theorem nodup_scan : documents.Nodup :=
  (pairwise_scan hcontents htree hscan).imp fun hapart heq =>
    hapart (congrArg Document.isIndex heq) (congrArg Document.identity heq)

/-- Two indexes, or two pages beside indexes, with one identity are one document. -/
theorem eq_of_kind {a b : Document} (ha : a ∈ documents) (hb : b ∈ documents)
    (hkind : a.isIndex = b.isIndex) (hidentity : a.identity = b.identity) : a = b := by
  by_contra hne
  exact (pairwise_scan hcontents htree hscan).forall ha hb hne hkind hidentity

/-- A page that has the identity of an index is of a greater level. -/
theorem level_lt_of_identity_eq {index page : Document} (hindex : index ∈ documents)
    (hpage : page ∈ documents) (hkind : index.isIndex = true) (hother : page.isIndex = false)
    (hidentity : page.identity = index.identity) : index.level < page.level := by
  obtain ⟨place, inward, _, _, _, _, _, _, _, hlevel, hpageLevel⟩ :=
    exists_way_of_identity_eq hcontents htree hscan hindex hpage hkind hother hidentity
  rw [hlevel, hpageLevel, List.length_append]
  omega

/-- Documents of a scan that come equal are one. -/
theorem eq_of_precedes {a b : Document} (ha : a ∈ documents) (hb : b ∈ documents)
    (hab : a.precedes b) (hba : b.precedes a) : a = b := by
  have hidentity := identity_eq_of_precedes hab hba
  have hlevel : a.level = b.level :=
    le_antisymm (level_le_of_precedes hab) (level_le_of_precedes hba)
  cases hkind : a.isIndex <;> cases hother : b.isIndex
  · exact eq_of_kind hcontents htree hscan ha hb (hkind.trans hother.symm) hidentity
  · have hless := level_lt_of_identity_eq hcontents htree hscan hb ha hother hkind hidentity
    omega
  · have hless := level_lt_of_identity_eq hcontents htree hscan ha hb hkind hother hidentity.symm
    omega
  · exact eq_of_kind hcontents htree hscan ha hb (hkind.trans hother.symm) hidentity

end WellNamed

/-- However directories are listed, a scan gives the same documents in the same order. -/
theorem scan_of_sameTree (h : SameTree (.directory contents) (.directory listed))
    (hcontents : (Node.directory contents).WellNamed) (hlisted : (Node.directory listed).WellNamed)
    (htree : fs.tree scanner.sourceDirectory = .ok contents)
    (hother : other.tree scanner.sourceDirectory = .ok listed) :
    scanner.scan other = scanner.scan fs := by
  have hscan := Scanner.scan_eq_ok htree
  have hfound := Scanner.scan_eq_ok hother
  have hsorted := pairwise_inOrder
    (scanner.documentsOf scanner.rootFolder (.directory contents))
  have hsorted' := pairwise_inOrder
    (scanner.documentsOf scanner.rootFolder (.directory listed))
  generalize inOrder _ = documents at hscan hsorted
  generalize inOrder _ = found at hfound hsorted'
  have hperm : found.Perm documents :=
    (List.perm_ext_iff_of_nodup (nodup_scan hlisted hother hfound)
      (nodup_scan hcontents htree hscan)).2 fun document =>
        ⟨fun hmem => subset_of_sameTree h.symm hlisted hcontents hother htree hfound hscan hmem,
          fun hmem => subset_of_sameTree h hcontents hlisted htree hother hscan hfound hmem⟩
  have hsame : found = documents := hperm.eq_of_pairwise (fun a b ha hb hab hba =>
    eq_of_precedes hcontents htree hscan (hperm.mem_iff.1 ha) hb hab hba) hsorted' hsorted
  rw [hfound, hscan, hsame]

end Scan

end WikiPress.Sync
