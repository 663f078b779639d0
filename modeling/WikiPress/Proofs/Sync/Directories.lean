import WikiPress.Proofs.Files.Lexical
import WikiPress.Proofs.Sync.Scan

/-!
# WikiPress.Proofs.Sync.Directories

The directories that become pages, and what a scan makes of them.

Design points:

* `PageDirectory` says which directories of a tree become pages, without a word of the scan. A
  place is the list of names by which a directory is reached, the innermost first. The tree is
  what can be listed; what that leaves out is said in `PageDirectory.exists_whole`.
* What a scan knows of a directory is a function of its place (`folderAt`): the path, the
  identity, the title and the level. So a document of a scan is told by a place and, if it is
  no index, a name there (`mem_documentsOf_iff`).
-/

namespace WikiPress.Sync

open WikiPress.Files (FileSystem Node Place ProperName join)

/-! ## Page directories -/

/-- The directories that become pages. -/
inductive PageDirectory (attachmentsFolder : String) (contents : Keyed Node) :
    Place → Keyed Node → Prop
  /-- The source directory. -/
  | source : PageDirectory attachmentsFolder contents [] contents
  /-- A directory in one of them that is neither hidden nor for attachments. -/
  | inside {place : Place} {entries inner : Keyed Node} {name : String} :
      PageDirectory attachmentsFolder contents place entries →
      (name, Node.directory inner) ∈ entries →
      isHidden name = false → name ≠ attachmentsFolder →
      PageDirectory attachmentsFolder contents (name :: place) inner

/-- Whether a file may be a page or published with one: its name is not hidden, and it is no
directory. -/
def VisibleFile (entries : Keyed Node) (name : String) : Prop :=
  ∃ node, (name, node) ∈ entries ∧ isHidden name = false ∧ node.isDirectory = false

theorem VisibleFile.properName {entries : Keyed Node} {name : String}
    (h : VisibleFile entries name) (hentries : (Node.directory entries).WellNamed) :
    ProperName name := by
  obtain ⟨node, hmem, _⟩ := h
  cases hentries with
  | directory _ hproper _ => exact hproper _ hmem

/-- The path of a place below a directory. -/
def pathAt (directory : String) (place : Place) : String :=
  place.foldr (fun name path => join path name) directory

/-- The identity a place has: its names from the outside in, with slashes between. -/
def identityOf (place : Place) : String :=
  place.foldr (fun name relative => identityIn relative name) ""

namespace PageDirectory

variable {attachmentsFolder : String} {contents entries inside : Keyed Node} {place inward : Place}

/-- What is in a well-named tree is well-named. -/
theorem wellNamed (h : PageDirectory attachmentsFolder contents place entries)
    (hcontents : (Node.directory contents).WellNamed) : (Node.directory entries).WellNamed := by
  induction h with
  | source => exact hcontents
  | inside _ hmem _ _ ih =>
      cases ih with
      | directory _ _ hinner => exact hinner _ hmem

/-- A page directory is reached by proper names. -/
theorem properNames (h : PageDirectory attachmentsFolder contents place entries)
    (hcontents : (Node.directory contents).WellNamed) : ∀ name ∈ place, ProperName name := by
  induction h with
  | source => exact fun name hname => absurd hname List.not_mem_nil
  | @inside place entries inner name h hmem _ _ ih =>
      cases h.wellNamed hcontents with
      | directory _ hproper _ => exact List.forall_mem_cons.2 ⟨hproper _ hmem, ih⟩

/-- A place has the contents it has. -/
theorem unique (h : PageDirectory attachmentsFolder contents place entries)
    (h' : PageDirectory attachmentsFolder contents place inside)
    (hcontents : (Node.directory contents).WellNamed) : entries = inside := by
  induction h generalizing inside with
  | source =>
      cases h'
      rfl
  | inside h hmem _ _ ih =>
      cases h' with
      | inside h' hmem' _ _ =>
          obtain rfl := ih h'
          cases h.wellNamed hcontents with
          | directory hdistinct _ _ =>
              cases Keyed.eq_of_mem hdistinct hmem hmem'
              rfl

/-- The directories around a page directory are page directories. -/
theorem around (h : PageDirectory attachmentsFolder contents (inward ++ place) entries) :
    ∃ outer, PageDirectory attachmentsFolder contents place outer := by
  induction inward generalizing entries with
  | nil => exact ⟨entries, h⟩
  | cons name rest ih =>
      cases h with
      | inside h _ _ _ => exact ih h

/-- What can be listed of a page directory is what can be listed at its place and by its path. -/
theorem exists_whole {fs : FileSystem} {directory : String} {base : Place}
    (h : PageDirectory attachmentsFolder (fs.listedEntries directory base contents) place entries) :
    ∃ whole, PageDirectory attachmentsFolder contents place whole
      ∧ entries = fs.listedEntries (pathAt directory place) (place ++ base) whole := by
  induction h with
  | source => exact ⟨contents, .source, rfl⟩
  | inside _ hmem hhidden hfolder ih =>
      obtain ⟨outer, houter, rfl⟩ := ih
      obtain ⟨whole, hwhole, -, rfl⟩ := Files.mem_listedEntries_directory.1 hmem
      exact ⟨whole, .inside houter hwhole hhidden hfolder, rfl⟩

end PageDirectory

/-- Every file can be listed where its directory can. -/
theorem visibleFile_listedEntries {fs : FileSystem} {directory name : String} {base : Place}
    {entries : Keyed Node} :
    VisibleFile (fs.listedEntries directory base entries) name ↔ VisibleFile entries name := by
  constructor
  · intro ⟨node, hmem, hhidden, hfile⟩
    exact ⟨node, (Files.mem_listedEntries_of_not_directory hfile).1 hmem, hhidden, hfile⟩
  · intro ⟨node, hmem, hhidden, hfile⟩
    exact ⟨node, (Files.mem_listedEntries_of_not_directory hfile).2 hmem, hhidden, hfile⟩

/-! ## What a scan knows of a place -/

namespace Scanner

variable {scanner : Scanner} {start folder : Folder} {contents entries : Keyed Node}
  {place base : Place} {document : Document}

/-- What a scan that starts at a directory takes a place for. -/
def folderAt (scanner : Scanner) (start : Folder) (place : Place) : Folder :=
  place.foldr (fun name folder => scanner.subfolder folder name) start

/-- A scan comes to the page directories, and knows them by their places. -/
theorem visits_iff : Visits scanner start contents place folder entries
    ↔ PageDirectory scanner.attachmentsFolder contents place entries
      ∧ folder = scanner.folderAt start place := by
  constructor
  · intro h
    induction h with
    | top => exact ⟨.source, rfl⟩
    | into _ hmem hhidden hfolder ih =>
        obtain ⟨hdirectory, rfl⟩ := ih
        exact ⟨.inside hdirectory hmem hhidden hfolder, rfl⟩
  · rintro ⟨h, rfl⟩
    induction h with
    | source => exact .top
    | inside _ hmem hhidden hfolder ih => exact .into ih hmem hhidden hfolder

/-- The documents of a directory are those of the page directories in it. -/
theorem mem_documentsOf_iff : document ∈ scanner.documentsOf start (.directory contents)
    ↔ ∃ place entries, PageDirectory scanner.attachmentsFolder contents place entries
      ∧ document ∈ scanner.documentsAt (scanner.folderAt start place) entries := by
  constructor
  · intro h
    obtain ⟨place, folder, entries, hvisits, hdocument⟩ := visits_of_mem_documentsOf .top h
    obtain ⟨hdirectory, rfl⟩ := visits_iff.1 hvisits
    exact ⟨place, entries, hdirectory, hdocument⟩
  · rintro ⟨place, entries, hdirectory, hdocument⟩
    exact documentsOf_subset (visits_iff.2 ⟨hdirectory, rfl⟩)
      (mem_documentsOf_directory.2 (Or.inl hdocument))

/-- The documents beside an index are the other Markdown files. -/
theorem mem_childDocuments : document ∈ scanner.childDocuments folder entries
    ↔ ∃ name, VisibleFile entries name ∧ name ≠ scanner.indexName ∧ isMarkdown name = true
      ∧ document = scanner.childDocument folder name := by
  simp only [childDocuments, List.mem_map, List.mem_filter, VisibleFile, Bool.and_eq_true,
    Bool.not_eq_true', bne_iff_ne]
  constructor
  · rintro ⟨⟨name, node⟩, ⟨hmem, ⟨⟨hhidden, hfile⟩, hindex⟩, hmarkdown⟩, rfl⟩
    exact ⟨name, ⟨node, hmem, hhidden, hfile⟩, hindex, hmarkdown, rfl⟩
  · rintro ⟨name, ⟨node, hmem, hhidden, hfile⟩, hindex, hmarkdown, rfl⟩
    exact ⟨(name, node), ⟨hmem, ⟨⟨hhidden, hfile⟩, hindex⟩, hmarkdown⟩, rfl⟩

theorem hasIndex_iff : scanner.hasIndex entries = true
    ↔ VisibleFile entries scanner.indexName := by
  simp only [hasIndex, List.any_eq_true, Bool.and_eq_true, Bool.not_eq_true', beq_iff_eq,
    VisibleFile]
  constructor
  · rintro ⟨⟨name, node⟩, hmem, ⟨hhidden, hfile⟩, rfl⟩
    exact ⟨node, hmem, hhidden, hfile⟩
  · rintro ⟨node, hmem, hhidden, hfile⟩
    exact ⟨(scanner.indexName, node), hmem, ⟨hhidden, hfile⟩, rfl⟩

/-! ### What is published with a page -/

/-- The files of an attachments folder that are published. -/
theorem mem_attachmentFiles {file path : String} : file ∈ attachmentFiles path entries
    ↔ ∃ name, VisibleFile entries name ∧ isMarkdown name = false ∧ file = join path name := by
  simp only [attachmentFiles, List.mem_map, List.mem_filter, Keyed.mem_sorted, Bool.and_eq_true,
    Bool.not_eq_true', VisibleFile]
  constructor
  · rintro ⟨⟨name, node⟩, ⟨hmem, ⟨hhidden, hfile⟩, hmarkdown⟩, rfl⟩
    exact ⟨name, ⟨node, hmem, hhidden, hfile⟩, hmarkdown, rfl⟩
  · rintro ⟨name, ⟨node, hmem, hhidden, hfile⟩, hmarkdown, rfl⟩
    exact ⟨(name, node), ⟨hmem, ⟨hhidden, hfile⟩, hmarkdown⟩, rfl⟩

/-- What the page of a directory publishes on account of one of the names there. -/
def publishedAt (scanner : Scanner) (folder : Folder) (name : String) (node : Node) :
    List String :=
  if isHidden name then []
  else match node with
    | .directory inner =>
        if name = scanner.attachmentsFolder then attachmentFiles (join folder.path name) inner
        else []
    | _ => if name = scanner.indexName || isMarkdown name then [] else [join folder.path name]

theorem attachments_eq_flatMap : scanner.attachments folder entries
    = (Keyed.sorted entries).flatMap fun pair => scanner.publishedAt folder pair.1 pair.2 := rfl

theorem mem_publishedAt {file name : String} {node : Node} :
    file ∈ scanner.publishedAt folder name node ↔ isHidden name = false
      ∧ (node.isDirectory = false ∧ name ≠ scanner.indexName ∧ isMarkdown name = false
          ∧ file = join folder.path name
        ∨ ∃ inner, node = .directory inner ∧ name = scanner.attachmentsFolder
          ∧ file ∈ attachmentFiles (join folder.path name) inner) := by
  unfold publishedAt
  by_cases hhidden : isHidden name
  · simp [hhidden]
  · cases node with
    | directory inner =>
        by_cases hfolder : name = scanner.attachmentsFolder <;>
          simp [hhidden, hfolder, Node.isDirectory]
    | file _ | link _ =>
        by_cases hindex : name = scanner.indexName <;> by_cases hmarkdown : isMarkdown name <;>
          simp [hhidden, hindex, hmarkdown, Node.isDirectory]

/-- The files published with a directory's page. -/
theorem mem_attachments {file : String} : file ∈ scanner.attachments folder entries
    ↔ (∃ name, VisibleFile entries name ∧ name ≠ scanner.indexName ∧ isMarkdown name = false
        ∧ file = join folder.path name)
      ∨ ∃ inner name, (scanner.attachmentsFolder, Node.directory inner) ∈ entries
        ∧ isHidden scanner.attachmentsFolder = false ∧ VisibleFile inner name
        ∧ isMarkdown name = false
        ∧ file = join (join folder.path scanner.attachmentsFolder) name := by
  simp only [attachments_eq_flatMap, List.mem_flatMap, Keyed.mem_sorted, mem_publishedAt,
    mem_attachmentFiles]
  constructor
  · rintro ⟨⟨name, node⟩, hmem, hhidden, ⟨hfile, hindex, hmarkdown, rfl⟩ |
      ⟨inner, rfl, rfl, below, hbelow, hmarkdown, rfl⟩⟩
    · exact Or.inl ⟨name, ⟨node, hmem, hhidden, hfile⟩, hindex, hmarkdown, rfl⟩
    · exact Or.inr ⟨inner, below, hmem, hhidden, hbelow, hmarkdown, rfl⟩
  · rintro (⟨name, ⟨node, hmem, hhidden, hfile⟩, hindex, hmarkdown, rfl⟩ |
      ⟨inner, below, hmem, hhidden, hbelow, hmarkdown, rfl⟩)
    · exact ⟨(name, node), hmem, hhidden, Or.inl ⟨hfile, hindex, hmarkdown, rfl⟩⟩
    · exact ⟨(_, .directory inner), hmem, hhidden,
        Or.inr ⟨inner, rfl, rfl, below, hbelow, hmarkdown, rfl⟩⟩

/-! ### What is known of a place -/

theorem path_folderAt : (scanner.folderAt start place).path = pathAt start.path place := by
  induction place with
  | nil => rfl
  | cons name rest ih => exact congrArg (join · name) ih

theorem relative_folderAt (h : start.relative = identityOf base) :
    (scanner.folderAt start place).relative = identityOf (place ++ base) := by
  induction place with
  | nil => exact h
  | cons name rest ih => exact congrArg (identityIn · name) ih

theorem relative_folderAt_root :
    (scanner.folderAt scanner.rootFolder place).relative = identityOf place := by
  have hroot : scanner.rootFolder.relative = identityOf [] := rfl
  rw [relative_folderAt hroot, List.append_nil]

theorem level_folderAt : (scanner.folderAt start place).level = start.level + place.length := by
  induction place with
  | nil => rfl
  | cons name rest ih => exact congrArg (· + 1) ih

/-! ### The documents of a scan -/

/-- The index document of a place. -/
def indexAt (scanner : Scanner) (place : Place) (entries : Keyed Node) : Document :=
  scanner.indexDocument (scanner.folderAt scanner.rootFolder place) entries

/-- The document of a Markdown file beside the index of a place. -/
def childAt (scanner : Scanner) (place : Place) (name : String) : Document :=
  scanner.childDocument (scanner.folderAt scanner.rootFolder place) name

theorem identity_indexAt : (scanner.indexAt place entries).identity
    = identityOf (scanner.indexName :: place) :=
  congrArg (identityIn · scanner.indexName) relative_folderAt_root

theorem identity_childAt {name : String} :
    (scanner.childAt place name).identity = identityOf (name :: place) :=
  congrArg (identityIn · name) relative_folderAt_root

theorem parentIdentity_childAt {name : String} :
    (scanner.childAt place name).parentIdentity = identityOf (scanner.indexName :: place) :=
  congrArg (identityIn · scanner.indexName) relative_folderAt_root

theorem source_indexAt_eq_file {file : String} :
    (scanner.indexAt place entries).source = .file file
      ↔ VisibleFile entries scanner.indexName
        ∧ file = join (pathAt scanner.sourceDirectory place) scanner.indexName := by
  simp only [indexAt, indexDocument, path_folderAt]
  rw [← hasIndex_iff]
  split
  · next h => simp [h, rootFolder, eq_comm]
  · next h => simp [h]

theorem source_indexAt_ne_virtual :
    (scanner.indexAt place entries).source ≠ .virtual ↔ VisibleFile entries scanner.indexName := by
  simp only [indexAt, indexDocument]
  rw [← hasIndex_iff]
  split
  · next h => simp [h]
  · next h => simp [h]

theorem source_childAt {name : String} : (scanner.childAt place name).source
    = .file (join (pathAt scanner.sourceDirectory place) name) :=
  congrArg (fun path => Source.file (join path name)) path_folderAt

/-- The files published with the page of a place. -/
theorem mem_attachments_indexAt {file : String} :
    file ∈ (scanner.indexAt place entries).attachments
      ↔ (∃ name, VisibleFile entries name ∧ name ≠ scanner.indexName ∧ isMarkdown name = false
          ∧ file = join (pathAt scanner.sourceDirectory place) name)
        ∨ ∃ inner name, (scanner.attachmentsFolder, Node.directory inner) ∈ entries
          ∧ isHidden scanner.attachmentsFolder = false ∧ VisibleFile inner name
          ∧ isMarkdown name = false
          ∧ file = join (join (pathAt scanner.sourceDirectory place) scanner.attachmentsFolder)
            name := by
  have hpath : (scanner.folderAt scanner.rootFolder place).path
      = pathAt scanner.sourceDirectory place := path_folderAt
  rw [← hpath]
  exact mem_attachments

theorem level_indexAt : (scanner.indexAt place entries).level = place.length :=
  level_folderAt.trans (Nat.zero_add _)

theorem level_childAt {name : String} :
    (scanner.childAt place name).level = place.length + 1 :=
  congrArg (· + 1) (level_folderAt.trans (Nat.zero_add _))

/-- The documents of a scan are the indexes of the page directories and the pages beside them. -/
theorem mem_scan_iff {fs : FileSystem} {documents : List Document}
    (htree : fs.tree scanner.sourceDirectory = .ok contents)
    (hscan : scanner.scan fs = .ok documents) : document ∈ documents
      ↔ ∃ place entries, PageDirectory scanner.attachmentsFolder contents place entries
        ∧ (document = scanner.indexAt place entries
          ∨ ∃ name, VisibleFile entries name ∧ name ≠ scanner.indexName ∧ isMarkdown name = true
            ∧ document = scanner.childAt place name) := by
  rw [scan_eq_ok htree] at hscan
  cases hscan
  simp only [mem_inOrder, mem_documentsOf_iff, documentsAt, List.mem_cons, mem_childDocuments,
    indexAt, childAt]

end Scanner

end WikiPress.Sync
