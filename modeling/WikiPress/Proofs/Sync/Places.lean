import WikiPress.Proofs.Sync.Directories

/-!
# WikiPress.Proofs.Sync.Places

Where the documents of a scan lie, and the files published with them.

Design points:

* Everything is said of a directory by the names the scan went by to it: they are its place
  below the source directory (`Lies`), and its page is called by the last of them.
* In a tree where every name is proper and is given once, the names tell the directory
  (`Visits.unique`).
* A file published with a page lies in the page's directory or in the attachments folder
  there (`exists_place_of_mem_attachments`).
-/

namespace WikiPress.Sync

open WikiPress.Files (FileSystem Node ProperName join fileName placeOf_join fileName_join
  join_ne_empty)

variable {scanner : Scanner} {fs : FileSystem} {start folder other : Folder}
  {contents entries inside : Keyed Node} {names : List String}

/-! ## Directories -/

/-- What a scan comes to in a well-named tree is well-named. -/
theorem Visits.wellNamed (h : Visits scanner start contents names folder entries)
    (hcontents : (Node.directory contents).WellNamed) : (Node.directory entries).WellNamed :=
  (Scanner.visits_iff.1 h).1.wellNamed hcontents

/-- The names a scan goes by tell where it comes to. -/
theorem Visits.unique (h : Visits scanner start contents names folder entries)
    (h' : Visits scanner start contents names other inside)
    (hcontents : (Node.directory contents).WellNamed) : folder = other ∧ entries = inside := by
  obtain ⟨hdirectory, rfl⟩ := Scanner.visits_iff.1 h
  obtain ⟨hdirectory', rfl⟩ := Scanner.visits_iff.1 h'
  exact ⟨rfl, hdirectory.unique hdirectory' hcontents⟩

/-- Where a directory that was visited lies below the source directory, and what its page is
called. -/
structure Lies (scanner : Scanner) (fs : FileSystem) (names : List String) (folder : Folder) :
    Prop where
  usable : folder.path ≠ ""
  place : fs.placeOf folder.path = names ++ fs.placeOf scanner.sourceDirectory
  /-- The source directory has a title of its own, the others are called by their names. -/
  title : folder.title = names.head?.getD scanner.rootTitle
  level : folder.level = names.length
  /-- No directory for attachments is visited. -/
  unattached : scanner.attachmentsFolder ∉ names

theorem Visits.lies (h : Visits scanner scanner.rootFolder contents names folder entries)
    (hsource : scanner.sourceDirectory ≠ "") (hcontents : (Node.directory contents).WellNamed) :
    Lies scanner fs names folder := by
  induction h with
  | top => exact ⟨hsource, rfl, rfl, rfl, List.not_mem_nil⟩
  | @into names folder entries inner name hvisits hmem _ hfolder ih =>
      cases hvisits.wellNamed hcontents with
      | directory _ hproper _ =>
          have hname : ProperName name := hproper _ hmem
          refine ⟨join_ne_empty ih.usable hname, ?_, rfl, ?_, ?_⟩
          · rw [Scanner.subfolder, placeOf_join fs ih.usable hname, ih.place]
            rfl
          · rw [Scanner.subfolder, ih.level]
            rfl
          · rw [List.mem_cons, not_or]
            exact ⟨Ne.symm hfolder, ih.unattached⟩

/-- Where a name in a directory lies. -/
theorem Lies.placeOf_join {name : String} (h : Lies scanner fs names folder)
    (hname : ProperName name) : fs.placeOf (join folder.path name)
      = name :: (names ++ fs.placeOf scanner.sourceDirectory) := by
  rw [Files.placeOf_join fs h.usable hname, h.place]

/-- Where a name in the attachments folder of a directory lies. -/
theorem Lies.placeOf_attached {name : String} (h : Lies scanner fs names folder)
    (hfolder : ProperName scanner.attachmentsFolder) (hname : ProperName name) :
    fs.placeOf (join (join folder.path scanner.attachmentsFolder) name)
      = name :: scanner.attachmentsFolder :: (names ++ fs.placeOf scanner.sourceDirectory) := by
  rw [Files.placeOf_join fs (join_ne_empty h.usable hfolder) hname, h.placeOf_join hfolder]

/-! ## Documents and attachments -/

/-- A document that comes from a file lies in the directory it belongs to. -/
theorem tail_placeOf_source {document : Document} {source : String}
    (hlies : Lies scanner fs names folder) (hentries : (Node.directory entries).WellNamed)
    (hdocument : document ∈ scanner.documentsAt folder entries)
    (hsource : document.source = .file source) :
    (fs.placeOf source).tail = names ++ fs.placeOf scanner.sourceDirectory := by
  cases hentries with
  | directory _ hproper _ =>
      -- the name in the directory
      obtain ⟨name, hname, rfl⟩ :
          ∃ name, ProperName name ∧ source = join folder.path name := by
        rcases List.mem_cons.1 hdocument with rfl | hchild
        · simp only [Scanner.indexDocument] at hsource
          split at hsource
          · next hindex =>
              obtain ⟨⟨name, node⟩, hmem, hname⟩ := List.any_eq_true.1 hindex
              simp only [Bool.and_eq_true, beq_iff_eq] at hname
              cases hsource
              exact ⟨_, hname.2 ▸ hproper _ hmem, rfl⟩
          · cases hsource
        · obtain ⟨⟨name, node⟩, hmem, rfl⟩ := List.mem_map.1 hchild
          cases hsource
          exact ⟨name, hproper _ (List.mem_of_mem_filter hmem), rfl⟩
      rw [hlies.placeOf_join hname]
      rfl

/-- Only an index has files published with it. -/
theorem eq_indexDocument_of_mem_attachments {document : Document} {file : String}
    (hdocument : document ∈ scanner.documentsAt folder entries)
    (hfile : file ∈ document.attachments) :
    document = scanner.indexDocument folder entries := by
  rcases List.mem_cons.1 hdocument with rfl | hchild
  · rfl
  · obtain ⟨⟨name, node⟩, _, rfl⟩ := List.mem_map.1 hchild
    cases hfile

/-- A file published with a page has a name in the page's directory or in the attachments
folder there. -/
theorem exists_join_of_mem_attachments {file : String}
    (hentries : (Node.directory entries).WellNamed)
    (hfile : file ∈ scanner.attachments folder entries) :
    ∃ name, ProperName name ∧ (file = join folder.path name
      ∨ ProperName scanner.attachmentsFolder
        ∧ file = join (join folder.path scanner.attachmentsFolder) name) := by
  rcases Scanner.mem_attachments.1 hfile with
    ⟨name, hvisible, _, _, rfl⟩ | ⟨inner, name, hmem, _, hvisible, _, rfl⟩
  · exact ⟨name, hvisible.properName hentries, Or.inl rfl⟩
  · cases hentries with
    | directory _ hproper hinner =>
        exact ⟨name, hvisible.properName (hinner _ hmem), Or.inr ⟨hproper _ hmem, rfl⟩⟩

/-- Where a file published with a page lies. -/
theorem exists_place_of_mem_attachments {file : String} (hlies : Lies scanner fs names folder)
    (hentries : (Node.directory entries).WellNamed)
    (hfile : file ∈ scanner.attachments folder entries) :
    ∃ name, ProperName name ∧ fileName file = some name
      ∧ (fs.placeOf file = name :: (names ++ fs.placeOf scanner.sourceDirectory)
        ∨ fs.placeOf file = name :: scanner.attachmentsFolder ::
          (names ++ fs.placeOf scanner.sourceDirectory)) := by
  obtain ⟨name, hname, rfl | ⟨hfolder, rfl⟩⟩ := exists_join_of_mem_attachments hentries hfile
  · exact ⟨name, hname, fileName_join hlies.usable hname, Or.inl (hlies.placeOf_join hname)⟩
  · exact ⟨name, hname, fileName_join (join_ne_empty hlies.usable hfolder) hname,
      Or.inr (hlies.placeOf_attached hfolder hname)⟩

end WikiPress.Sync
