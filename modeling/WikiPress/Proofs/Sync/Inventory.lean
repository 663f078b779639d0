import WikiPress.Proofs.Sync.ClosedHierarchy
import WikiPress.Proofs.Sync.Listing
import WikiPress.Proofs.Sync.Places

/-!
# WikiPress.Proofs.Sync.Inventory

What a scan makes of every file that can be listed: nothing is left out and nothing is used
twice.

`Used` says which files are to be used, for the page of which directory, and as what; it reads
the tree and not the scan. `Inventory` holds the documents of a scan against it, and
`inventory_of_scan` is the main statement.

Design points:

* A file is told by its path. Different places below the source directory have different paths
  (`Used.unique`), because the names of a path can be read off it again.
* That a file is used once is one statement about all documents together: the files they use,
  in one list, have no repetition. So it says both that no two documents use a file and that
  none uses it twice.
* The tree is what can be listed below the source directory, with each name once in its directory.
  What becomes of the rest, and of names that are shown alike, is seen on examples
  (`not_inventory`).
-/

namespace WikiPress.Sync

open WikiPress.Files (FileSystem Node Place ProperName join placeOf_join fileName_join
  join_ne_empty)

/-- What a file may be used for. -/
inductive Role
  | index
  | page
  | attachment
  deriving DecidableEq, Repr

/-- What a file in a page directory is used for, going by its name. -/
def Scanner.roleOf (scanner : Scanner) (name : String) : Role :=
  if name = scanner.indexName then .index
  else if isMarkdown name then .page
  else .attachment

/-- The files to be used, each with the place of the page directory it belongs to. -/
inductive Used (scanner : Scanner) (contents : Keyed Node) : Place → Role → String → Prop
  /-- A file in a page directory. -/
  | here {place : Place} {entries : Keyed Node} {name : String} :
      PageDirectory scanner.attachmentsFolder contents place entries →
      VisibleFile entries name →
      Used scanner contents place (scanner.roleOf name)
        (join (pathAt scanner.sourceDirectory place) name)
  /-- A file in the attachments folder of one, unless it is a Markdown file. -/
  | attached {place : Place} {entries inner : Keyed Node} {name : String} :
      PageDirectory scanner.attachmentsFolder contents place entries →
      (scanner.attachmentsFolder, Node.directory inner) ∈ entries →
      isHidden scanner.attachmentsFolder = false →
      VisibleFile inner name → isMarkdown name = false →
      Used scanner contents place .attachment
        (join (join (pathAt scanner.sourceDirectory place) scanner.attachmentsFolder) name)

/-- The files a document uses. -/
def Document.files (document : Document) : List String :=
  document.path.toList ++ document.attachments

/-- Whether a document uses a file as this. -/
def Document.Has (document : Document) : Role → String → Prop
  | .index, file => document.isIndex = true ∧ document.source = .file file
  | .page, file => document.isIndex = false ∧ document.source = .file file
  | .attachment, file => file ∈ document.attachments

/-- Whether a document is the index of a directory. -/
def Scanner.IsIndexOf (scanner : Scanner) (place : Place) (document : Document) : Prop :=
  document.isIndex = true ∧ document.identity = identityOf (scanner.indexName :: place)

/-- Whether a document is one of a directory that may use files as this: only its pages have
pages' files, and only its index has the others. -/
def Scanner.Serves (scanner : Scanner) (place : Place) : Role → Document → Prop
  | .page, document =>
      document.isIndex = false
        ∧ document.parentIdentity = identityOf (scanner.indexName :: place)
  | _, document => scanner.IsIndexOf place document

/-- Documents that use every file that is to be used, and no other, exactly once. -/
structure Inventory (scanner : Scanner) (contents : Keyed Node) (documents : List Document) :
    Prop where
  distinct : documents.Nodup
  /-- Every page directory has one index. -/
  index : ∀ {place entries}, PageDirectory scanner.attachmentsFolder contents place entries →
    ∃! document, document ∈ documents ∧ scanner.IsIndexOf place document
  /-- The index comes from a file if there is one of its name. -/
  source : ∀ {place entries}, PageDirectory scanner.attachmentsFolder contents place entries →
    ∀ document ∈ documents, scanner.IsIndexOf place document →
      (document.source ≠ .virtual ↔ VisibleFile entries scanner.indexName)
  /-- No file is used twice, by one document or by two. -/
  once : (documents.flatMap Document.files).Nodup
  used : ∀ {place role file}, Used scanner contents place role file →
    ∃ document ∈ documents, scanner.Serves place role document ∧ document.Has role file
  /-- Nothing else is used, or for anything else. -/
  only : ∀ document ∈ documents, ∀ {role file}, document.Has role file →
    ∃ place, Used scanner contents place role file ∧ scanner.Serves place role document
  onlyIndexes : ∀ document ∈ documents, document.isIndex = true →
    ∃ place entries, PageDirectory scanner.attachmentsFolder contents place entries
      ∧ scanner.IsIndexOf place document
  onlyPages : ∀ document ∈ documents, document.isIndex = false →
    ∃ file, document.Has .page file

variable {scanner : Scanner} {fs : FileSystem} {contents entries inner : Keyed Node}
  {place other : Place} {role : Role} {file name : String} {documents : List Document}
  {document : Document}

namespace Document

theorem mem_path_iff : file ∈ document.path.toList ↔ document.source = .file file := by
  rw [Option.mem_toList, path]
  cases document.source <;> simp [eq_comm]

/-- The file a document comes from is used as its text. -/
theorem exists_has_of_source (h : document.source = .file file) :
    ∃ role, role ≠ .attachment ∧ document.Has role file := by
  cases hkind : document.isIndex
  · exact ⟨.page, by decide, hkind, h⟩
  · exact ⟨.index, by decide, hkind, h⟩

theorem mem_files_iff : file ∈ document.files ↔ ∃ role, document.Has role file := by
  rw [files, List.mem_append, mem_path_iff]
  constructor
  · rintro (hsource | hattached)
    · obtain ⟨role, _, h⟩ := exists_has_of_source hsource
      exact ⟨role, h⟩
    · exact ⟨.attachment, hattached⟩
  · rintro ⟨role, h⟩
    cases role with
    | index | page => exact Or.inl h.2
    | attachment => exact Or.inr h

end Document

/-! ## A file is used at one place -/

theorem ne_empty_of_tree {path : String} (h : fs.tree path = .ok contents) : path ≠ "" := by
  rintro rfl
  simp [FileSystem.tree, FileSystem.find, FileSystem.walkFrom] at h

theorem join_right_inj {path other : String} (hpath : path ≠ "") (hname : ProperName name)
    (hother : ProperName other) (h : join path name = join path other) : name = other := by
  have hnames := congrArg Files.fileName h
  rw [fileName_join hpath hname, fileName_join hpath hother] at hnames
  exact Option.some.inj hnames

section Used

variable (fs) (hcontents : (Node.directory contents).WellNamed)
  (hsource : scanner.sourceDirectory ≠ "")

include fs hcontents hsource

theorem PageDirectory.lies (h : PageDirectory scanner.attachmentsFolder contents place entries) :
    Lies scanner fs place (scanner.folderAt scanner.rootFolder place) :=
  (Scanner.visits_iff.2 ⟨h, rfl⟩).lies hsource hcontents

theorem PageDirectory.path_ne_empty
    (h : PageDirectory scanner.attachmentsFolder contents place entries) :
    pathAt scanner.sourceDirectory place ≠ "" := by
  have hpath : (scanner.folderAt scanner.rootFolder place).path
      = pathAt scanner.sourceDirectory place := Scanner.path_folderAt
  exact hpath ▸ (h.lies fs hcontents hsource).usable

/-- Where a file that is used lies: at its place, or in the attachments folder there. -/
theorem Used.placeOf (h : Used scanner contents place role file) :
    scanner.attachmentsFolder ∉ place
      ∧ ((∃ name, role = scanner.roleOf name
          ∧ fs.placeOf file = name :: (place ++ fs.placeOf scanner.sourceDirectory))
        ∨ ∃ name, role = .attachment
          ∧ fs.placeOf file = name :: scanner.attachmentsFolder ::
            (place ++ fs.placeOf scanner.sourceDirectory)) := by
  cases h with
  | @here entries name hdirectory hfile =>
      have hlies := hdirectory.lies fs hcontents hsource
      have hname := hfile.properName (hdirectory.wellNamed hcontents)
      refine ⟨hlies.unattached, Or.inl ⟨name, rfl, ?_⟩⟩
      rw [← hlies.placeOf_join hname, Scanner.path_folderAt]
      rfl
  | @attached entries inner name hdirectory hmem _ hfile _ =>
      have hlies := hdirectory.lies fs hcontents hsource
      cases hdirectory.wellNamed hcontents with
      | directory _ hproper hinner =>
          have hname := hfile.properName (hinner _ hmem)
          refine ⟨hlies.unattached, Or.inr ⟨name, rfl, ?_⟩⟩
          rw [← hlies.placeOf_attached (hproper _ hmem) hname, Scanner.path_folderAt]
          rfl

/-- A file is to be used at one place, and for one thing. -/
theorem Used.unique {usage : Role} (h : Used scanner contents place role file)
    (h' : Used scanner contents other usage file) : place = other ∧ role = usage := by
  obtain ⟨hplace, h⟩ := h.placeOf fs hcontents hsource
  obtain ⟨hother, h'⟩ := h'.placeOf fs hcontents hsource
  rcases h with ⟨name, rfl, hlies⟩ | ⟨name, rfl, hlies⟩ <;>
    rcases h' with ⟨text, rfl, hlies'⟩ | ⟨text, rfl, hlies'⟩ <;> rw [hlies] at hlies'
  · obtain ⟨rfl, hsame⟩ := List.cons.inj hlies'
    exact ⟨List.append_cancel_right hsame, rfl⟩
  -- no place has the attachments folder in it
  · have hsame : place = scanner.attachmentsFolder :: other :=
      List.append_cancel_right (List.cons.inj hlies').2
    exact absurd (hsame ▸ List.mem_cons_self) hplace
  · have hsame : scanner.attachmentsFolder :: place = other :=
      List.append_cancel_right (List.cons.inj hlies').2
    exact absurd (hsame ▸ List.mem_cons_self) hother
  · exact ⟨List.append_cancel_right (List.cons.inj (List.cons.inj hlies').2).2, rfl⟩

end Used

/-! ## A page publishes a file once -/

theorem nodup_attachmentFiles {path : String} (hpath : path ≠ "")
    (hentries : (Node.directory entries).WellNamed) : (attachmentFiles path entries).Nodup := by
  cases hentries with
  | directory hdistinct hproper _ =>
      have hsorted := List.pairwise_map.1 (Keyed.nodup_sorted hdistinct)
      refine List.pairwise_map.2 ((hsorted.filter _).imp_of_mem fun {a b} ha hb hne heq => ?_)
      have ha := Keyed.mem_sorted.1 (List.mem_of_mem_filter ha)
      have hb := Keyed.mem_sorted.1 (List.mem_of_mem_filter hb)
      exact hne (join_right_inj hpath (hproper _ ha) (hproper _ hb) heq)

section Published

variable {folder : Folder} {node : Node} (fs) (hfolder : folder.path ≠ "")
  (hname : ProperName name) (hnode : node.WellNamed)

include hfolder hname hnode

theorem nodup_publishedAt : (scanner.publishedAt folder name node).Nodup := by
  unfold Scanner.publishedAt
  cases node with
  | file _ | link _ =>
      simp only
      split_ifs <;> simp
  | directory inner =>
      simp only
      split_ifs
      · exact List.nodup_nil
      · exact nodup_attachmentFiles (join_ne_empty hfolder hname) hnode
      · exact List.nodup_nil

/-- What is published on account of a name lies at that name or below. -/
theorem placeOf_of_mem_publishedAt (h : file ∈ scanner.publishedAt folder name node) :
    ∃ inward, fs.placeOf file = inward ++ name :: fs.placeOf folder.path := by
  obtain ⟨_, ⟨_, _, _, rfl⟩ | ⟨inner, rfl, _, hfile⟩⟩ := Scanner.mem_publishedAt.1 h
  · exact ⟨[], placeOf_join fs hfolder hname⟩
  · obtain ⟨below, hvisible, _, rfl⟩ := Scanner.mem_attachmentFiles.1 hfile
    refine ⟨[below], ?_⟩
    rw [placeOf_join fs (join_ne_empty hfolder hname) (hvisible.properName hnode),
      placeOf_join fs hfolder hname]
    rfl

end Published

/-- A page does not publish a file twice. -/
theorem nodup_attachments {folder : Folder} (fs : FileSystem) (hfolder : folder.path ≠ "")
    (hentries : (Node.directory entries).WellNamed) :
    (scanner.attachments folder entries).Nodup := by
  cases hentries with
  | directory hdistinct hproper hinner =>
      have hmem : ∀ pair ∈ Keyed.sorted entries, ProperName pair.1 ∧ pair.2.WellNamed :=
        fun pair hpair =>
          ⟨hproper _ (Keyed.mem_sorted.1 hpair), hinner _ (Keyed.mem_sorted.1 hpair)⟩
      rw [Scanner.attachments_eq_flatMap, List.nodup_flatMap]
      refine ⟨fun pair hpair => nodup_publishedAt hfolder (hmem _ hpair).1 (hmem _ hpair).2, ?_⟩
      have hsorted := List.pairwise_map.1 (Keyed.nodup_sorted hdistinct)
      refine hsorted.imp_of_mem fun {a b} ha hb hne file hfile hother => hne ?_
      -- what lies at or below two names of one directory lies at one
      obtain ⟨hname, hnode⟩ := hmem _ ha
      obtain ⟨hname', hnode'⟩ := hmem _ hb
      obtain ⟨inward, h⟩ := placeOf_of_mem_publishedAt fs hfolder hname hnode hfile
      obtain ⟨within, h'⟩ := placeOf_of_mem_publishedAt fs hfolder hname' hnode' hother
      rw [h, List.append_cons, List.append_cons within] at h'
      exact (List.append_singleton_inj.1 (List.append_cancel_right h')).2

/-! ## What the documents of a scan use -/

namespace Scanner

theorem roleOf_indexName : scanner.roleOf scanner.indexName = .index := if_pos rfl

theorem roleOf_of_markdown (hne : name ≠ scanner.indexName) (hmarkdown : isMarkdown name = true) :
    scanner.roleOf name = .page := by
  rw [roleOf, if_neg hne, if_pos hmarkdown]

theorem roleOf_of_other (hne : name ≠ scanner.indexName) (hmarkdown : isMarkdown name = false) :
    scanner.roleOf name = .attachment := by
  simp [roleOf, hne, hmarkdown]

/-- The index of a place is the one document that has its identity. -/
theorem isIndexOf_indexAt : scanner.IsIndexOf place (scanner.indexAt place entries) :=
  ⟨rfl, identity_indexAt⟩

theorem serves_childAt : scanner.Serves place .page (scanner.childAt place name) :=
  ⟨rfl, parentIdentity_childAt⟩

end Scanner

section Scan

variable (hcontents : (Node.directory contents).WellNamed)
  (htree : fs.tree scanner.sourceDirectory = .ok contents)
  (hscan : scanner.scan fs = .ok documents)

include hcontents htree hscan

omit hcontents in
theorem mem_indexAt (h : PageDirectory scanner.attachmentsFolder contents place entries) :
    scanner.indexAt place entries ∈ documents :=
  (Scanner.mem_scan_iff htree hscan).2 ⟨place, entries, h, Or.inl rfl⟩

/-- A page directory has no other index. -/
theorem Scanner.IsIndexOf.eq_indexAt (h : scanner.IsIndexOf place document)
    (hmem : document ∈ documents)
    (hdirectory : PageDirectory scanner.attachmentsFolder contents place entries) :
    document = scanner.indexAt place entries :=
  eq_of_kind hcontents htree hscan hmem (mem_indexAt htree hscan hdirectory) h.1
    (h.2.trans Scanner.identity_indexAt.symm)

omit hcontents in
/-- A file that is to be used is used, by a document of its place. -/
theorem Used.exists_document (h : Used scanner contents place role file) :
    ∃ document ∈ documents, scanner.Serves place role document ∧ document.Has role file := by
  cases h with
  | @here entries name hdirectory hfile =>
      by_cases hname : name = scanner.indexName
      · subst hname
        rw [Scanner.roleOf_indexName]
        exact ⟨_, mem_indexAt htree hscan hdirectory, Scanner.isIndexOf_indexAt, rfl,
          Scanner.source_indexAt_eq_file.2 ⟨hfile, rfl⟩⟩
      · cases hmarkdown : isMarkdown name
        · rw [Scanner.roleOf_of_other hname hmarkdown]
          exact ⟨_, mem_indexAt htree hscan hdirectory, Scanner.isIndexOf_indexAt,
            Scanner.mem_attachments_indexAt.2
              (Or.inl ⟨name, hfile, hname, hmarkdown, rfl⟩)⟩
        · rw [Scanner.roleOf_of_markdown hname hmarkdown]
          exact ⟨scanner.childAt place name, (Scanner.mem_scan_iff htree hscan).2
            ⟨place, entries, hdirectory, Or.inr ⟨name, hfile, hname, hmarkdown, rfl⟩⟩,
            Scanner.serves_childAt, rfl, Scanner.source_childAt⟩
  | @attached entries inner name hdirectory hmem hhidden hfile hmarkdown =>
      exact ⟨_, mem_indexAt htree hscan hdirectory, Scanner.isIndexOf_indexAt,
        Scanner.mem_attachments_indexAt.2
          (Or.inr ⟨inner, name, hmem, hhidden, hfile, hmarkdown, rfl⟩)⟩

omit hcontents in
/-- What a document uses is to be used, and the document is one of that place. -/
theorem Document.Has.origin (hmem : document ∈ documents) (h : document.Has role file) :
    ∃ place entries, PageDirectory scanner.attachmentsFolder contents place entries
      ∧ Used scanner contents place role file
      ∧ (role ≠ .page ∧ document = scanner.indexAt place entries
        ∨ role = .page ∧ ∃ name, VisibleFile entries name
          ∧ document = scanner.childAt place name) := by
  obtain ⟨place, entries, hdirectory, rfl | ⟨name, hfile, hne, hmarkdown, rfl⟩⟩ :=
    (Scanner.mem_scan_iff htree hscan).1 hmem
  · refine ⟨place, entries, hdirectory, ?_⟩
    cases role with
    | index =>
        obtain ⟨hfile, rfl⟩ := Scanner.source_indexAt_eq_file.1 h.2
        exact ⟨Scanner.roleOf_indexName ▸ .here hdirectory hfile, Or.inl ⟨by decide, rfl⟩⟩
    | page => exact absurd h.1 (Bool.noConfusion : true ≠ false)
    | attachment =>
        refine ⟨?_, Or.inl ⟨by decide, rfl⟩⟩
        rcases Scanner.mem_attachments_indexAt.1 h with
          ⟨name, hfile, hne, hmarkdown, rfl⟩ | ⟨inner, name, hin, hhidden, hfile, hmarkdown, rfl⟩
        · exact Scanner.roleOf_of_other hne hmarkdown ▸ .here hdirectory hfile
        · exact .attached hdirectory hin hhidden hfile hmarkdown
  · refine ⟨place, entries, hdirectory, ?_⟩
    cases role with
    | index => exact absurd h.1 (Bool.noConfusion : false ≠ true)
    | page =>
        obtain rfl : join (pathAt scanner.sourceDirectory place) name = file :=
          Source.file.inj (Scanner.source_childAt.symm.trans h.2)
        exact ⟨Scanner.roleOf_of_markdown hne hmarkdown ▸ .here hdirectory hfile,
          Or.inr ⟨rfl, name, hfile, rfl⟩⟩
    | attachment => exact absurd h List.not_mem_nil

/-- Two documents that use one file are one, and use it for one thing. -/
theorem Document.Has.unique {a b : Document} {usage : Role} (ha : a ∈ documents)
    (hb : b ∈ documents) (hfile : a.Has role file) (hother : b.Has usage file) :
    a = b ∧ role = usage := by
  have hsource := ne_empty_of_tree htree
  obtain ⟨place, entries, hdirectory, hused, horigin⟩ := hfile.origin htree hscan ha
  obtain ⟨other, within, hdirectory', hused', horigin'⟩ := hother.origin htree hscan hb
  obtain ⟨rfl, rfl⟩ := hused.unique fs hcontents hsource hused'
  refine ⟨?_, rfl⟩
  obtain rfl := hdirectory.unique hdirectory' hcontents
  rcases horigin with ⟨hne, rfl⟩ | ⟨rfl, name, hvisible, rfl⟩ <;>
    rcases horigin' with ⟨hne', rfl⟩ | ⟨hrole, text, hvisible', rfl⟩
  · rfl
  · exact absurd hrole hne
  · exact absurd rfl hne'
  · have hwellNamed := hdirectory.wellNamed hcontents
    have husable := hdirectory.path_ne_empty fs hcontents hsource
    have hpaths : join (pathAt scanner.sourceDirectory place) name
        = join (pathAt scanner.sourceDirectory place) text :=
      Source.file.inj ((Scanner.source_childAt.symm.trans hfile.2).trans
        (Scanner.source_childAt.symm.trans hother.2).symm)
    rw [join_right_inj husable (hvisible.properName hwellNamed) (hvisible'.properName hwellNamed)
      hpaths]

/-- A document uses no file twice. -/
theorem nodup_files (hmem : document ∈ documents) : document.files.Nodup := by
  have hattachments : document.attachments.Nodup := by
    obtain ⟨place, entries, hdirectory, rfl | ⟨name, _, _, _, rfl⟩⟩ :=
      (Scanner.mem_scan_iff htree hscan).1 hmem
    · exact nodup_attachments fs (hdirectory.lies fs hcontents (ne_empty_of_tree htree)).usable
        (hdirectory.wellNamed hcontents)
    · exact List.nodup_nil
  refine List.nodup_append.2 ⟨Option.toList_nodup _, hattachments,
    fun file hsource other hattached heq => ?_⟩
  -- its text is not also an attachment
  obtain ⟨role, hrole, hfile⟩ := Document.exists_has_of_source (Document.mem_path_iff.1 hsource)
  have hother : document.Has .attachment file := heq ▸ hattached
  exact hrole (hfile.unique hcontents htree hscan hmem hmem hother).2

/-- The documents of a scan use every file that is to be used exactly once. -/
theorem inventory : Inventory scanner contents documents where
  distinct := nodup_scan hcontents htree hscan
  index := by
    intro place entries hdirectory
    refine ⟨scanner.indexAt place entries,
      ⟨mem_indexAt htree hscan hdirectory, Scanner.isIndexOf_indexAt⟩, ?_⟩
    rintro other ⟨hother, hindex⟩
    exact hindex.eq_indexAt hcontents htree hscan hother hdirectory
  source := by
    intro place entries hdirectory document hmem hindex
    obtain rfl := hindex.eq_indexAt hcontents htree hscan hmem hdirectory
    exact Scanner.source_indexAt_ne_virtual
  once := by
    refine List.nodup_flatMap.2 ⟨fun document hmem => nodup_files hcontents htree hscan hmem, ?_⟩
    refine (nodup_scan hcontents htree hscan).imp_of_mem
      fun {a b} ha hb hne file hfile hother => ?_
    obtain ⟨role, hrole⟩ := Document.mem_files_iff.1 hfile
    obtain ⟨usage, husage⟩ := Document.mem_files_iff.1 hother
    exact hne (hrole.unique hcontents htree hscan ha hb husage).1
  used := fun hused => hused.exists_document htree hscan
  only := by
    intro document hmem role file hfile
    obtain ⟨place, entries, _, hused, horigin⟩ := hfile.origin htree hscan hmem
    refine ⟨place, hused, ?_⟩
    rcases horigin with ⟨hrole, rfl⟩ | ⟨rfl, name, _, rfl⟩
    · cases role with
      | index | attachment => exact Scanner.isIndexOf_indexAt
      | page => exact absurd rfl hrole
    · exact Scanner.serves_childAt
  onlyIndexes := by
    intro document hmem hkind
    obtain ⟨place, entries, hdirectory, rfl | ⟨name, _, _, _, rfl⟩⟩ :=
      (Scanner.mem_scan_iff htree hscan).1 hmem
    · exact ⟨place, entries, hdirectory, Scanner.isIndexOf_indexAt⟩
    · cases hkind
  onlyPages := by
    intro document hmem hkind
    obtain ⟨place, entries, _, rfl | ⟨name, _, _, _, rfl⟩⟩ :=
      (Scanner.mem_scan_iff htree hscan).1 hmem
    · cases hkind
    · exact ⟨_, rfl, Scanner.source_childAt⟩

end Scan

theorem wellNamed_handbook : (Node.directory handbookContents).WellNamed := by
  have hguide : (Node.directory [("shot.png", .file .empty), ("assets", .link ".."),
      ("setup.md", .link "gone")]).WellNamed :=
    .directory (by decide) (by decide) (by simp [Node.WellNamed.file, Node.WellNamed.link])
  have hassets : (Node.directory [("logo.png", .file .empty), ("notes.md", .file .empty),
      (".cache", .file .empty)]).WellNamed :=
    .directory (by decide) (by decide) (by simp [Node.WellNamed.file])
  have hgit : (Node.directory [("log.md", .file .empty)]).WellNamed :=
    .directory (by decide) (by decide) (by simp [Node.WellNamed.file])
  have hdeep : (Node.directory []).WellNamed := .directory (by decide) (by simp) (by simp)
  have hindex : (Node.directory [("deep", .directory []), ("index.md", .file .empty)]).WellNamed :=
    .directory (by decide) (by decide) (by simp [hdeep, Node.WellNamed.file])
  exact .directory (by decide) (by decide)
    (by simp [handbookContents, hguide, hassets, hgit, hindex, Node.WellNamed.file])

/-- What a scan of the handbook finds where a directory below the source directory may not be
listed. -/
def foundWithout (place : Place) : List Document :=
  let scanner : Scanner := { sourceDirectory := "docs" }
  scanner.documentsOf scanner.rootFolder
    (.directory ((handbookWithout place).listedEntries "docs" ["docs"] handbookContents))

theorem scan_handbookWithout {place : Place} (h : ["docs"] ≠ place) :
    Scanner.scan { sourceDirectory := "docs" } (handbookWithout place)
      = .ok (inOrder (foundWithout place)) := by
  have hlist : (handbookWithout place).mayList "docs" ["docs"] = true := by
    have hopen : (["docs"] == place) = false := beq_eq_false_iff_ne.2 h
    simp only [FileSystem.mayList, handbookWithout, hopen]
    decide
  have htree : (handbookWithout place).tree (Scanner.sourceDirectory { sourceDirectory := "docs" })
      = .ok _ :=
    FileSystem.tree_eq_ok_iff.2 ⟨_, _, find_handbookWithout place, hlist, rfl⟩
  exact Scanner.scan_eq_ok htree

/-- Whether a scan of the handbook leaves something out if a directory may not be listed. -/
def LeavesOut (place : Place) : Prop :=
  (handbookWithout place).node "docs" = .ok (.directory handbookContents)
    ∧ ∃ documents,
      Scanner.scan { sourceDirectory := "docs" } (handbookWithout place) = .ok documents
        ∧ ¬ Inventory { sourceDirectory := "docs" } handbookContents documents

/-- No page. -/
theorem leavesOut_docs : LeavesOut ["docs"] := by
  refine ⟨node_handbookWithout _, _, scan_handbookWithout_docs, fun h => ?_⟩
  obtain ⟨document, ⟨hmem, -⟩, -⟩ := h.index .source
  cases hmem

/-- A subdirectory is no page. -/
theorem leavesOut_guide : LeavesOut ["guide", "docs"] := by
  refine ⟨node_handbookWithout _, _, scan_handbookWithout (by decide), fun h => ?_⟩
  have hguide : PageDirectory (Scanner.attachmentsFolder { sourceDirectory := "docs" })
      handbookContents ["guide"] _ :=
    .inside .source (.tail _ (.head _)) (by decide) (by decide)
  obtain ⟨document, ⟨hmem, -, hidentity⟩, -⟩ := h.index hguide
  have hnone : ∀ document ∈ foundWithout ["guide", "docs"],
      document.identity ≠ identityOf ["index.md", "guide"] := by decide +kernel
  exact hnone document (mem_inOrder.1 hmem) hidentity

/-- The files of an attachments folder are not published. -/
theorem leavesOut_assets : LeavesOut ["assets", "docs"] := by
  refine ⟨node_handbookWithout _, _, scan_handbookWithout (by decide), fun h => ?_⟩
  have hlogo : Used { sourceDirectory := "docs" } handbookContents [] .attachment
      (join (join "docs" "assets") "logo.png") :=
    .attached .source (.tail _ (.tail _ (.head _))) (by decide) ⟨_, .head _, by decide, rfl⟩
      (by decide)
  obtain ⟨document, hmem, -, hattached⟩ := h.used hlogo
  have hnone : ∀ document ∈ foundWithout ["assets", "docs"],
      join (join "docs" "assets") "logo.png" ∉ document.attachments := by decide +kernel
  exact hnone document (mem_inOrder.1 hmem) hattached

/-- Two directories, of which the names are no texts and are shown alike. -/
def shownAlike : Keyed Node :=
  [("\uFFFD", .directory [("index.md", .file .empty)]), ("\uFFFD", .directory [])]

theorem scan_shownAlike : Scanner.scan { sourceDirectory := "docs" } (docs shownAlike)
    ≠ Scanner.scan { sourceDirectory := "docs" } (docs shownAlike.reverse) := by
  have hforwards : Scanner.scan { sourceDirectory := "docs" } (docs shownAlike) = _ :=
    scan_docs rfl rfl
  have hbackwards : Scanner.scan { sourceDirectory := "docs" } (docs shownAlike.reverse) = _ :=
    scan_docs rfl rfl
  rw [hforwards, hbackwards, inOrder_of_pairwise (by decide +kernel),
    inOrder_of_pairwise (by decide +kernel)]
  decide +kernel

end WikiPress.Sync
