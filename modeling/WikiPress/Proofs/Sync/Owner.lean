import WikiPress.CommandLine.Execute
import WikiPress.Proofs.Attachment
import WikiPress.Proofs.Config.Validate
import WikiPress.Proofs.Sync.Places

/-!
# WikiPress.Proofs.Sync.Owner

The page a reference names is the page the file is published with.

The scan gives files to pages by the directories it comes through. The writer sees nothing of
them: it goes by the segments of the path in the text. Both mean the same page, because the
path leads from the document's directory to that of the file's page, so far up and then down
by names (`Descent`), and the last of these names is what that page is called.

Design points:

* A path that does not go down by a name tells nothing about where it leads. If it does not
  go up either, the file belongs to the page of the document's own directory.
* The source directory may have any title. A path that goes down into it by name is right
  about it only if that is its name.
-/

namespace WikiPress.Sync

open WikiPress.Attachment (Directory Relative directoryPart directoryPart_leads dropFolder
  dropFolder_concat pageTitle_ofSegments pathOf reference reference_of_relative filenameOf
  filenameOf_of_getLast?)
open WikiPress.CommandLine (scannerOf styleOf)
open WikiPress.Files (FileSystem Node Place ProperName fileName lexically)
open WikiPress.Markup (Event Tag)
open WikiPress.Storage (Style Context ReferenceKind attachmentStart ownerTitle)
open WikiPress.Text (segmentsOf)

/-! ## The macro of a destination -/

/-- The destination of an image or a link. Email links have none. -/
def destinationOf : Tag → Option (ReferenceKind × String)
  | .image destination _ => some (.image, destination)
  | .link kind destination _ => if kind = .email then none else some (.link, destination)
  | _ => none

/-- Whether an attachment may be opened: outside code, other attachments and the alternative
text of images. -/
structure Ready (s : Storage.State) : Prop where
  code : s.code = none
  macroBody : s.macroBody = none
  image : s.inDelegatedImage = false

/-- A destination that names an attachment is written as a macro. -/
theorem step_of_reference {style : Style} {context : Context} {s : Storage.State} {tag : Tag}
    {kind : ReferenceKind} {destination : String} {r : Attachment.Reference} (hready : Ready s)
    (htag : destinationOf tag = some (kind, destination))
    (hreference : reference style.attachmentsFolder destination = some r) :
    (Storage.step style context s (.opening tag)).2
      = attachmentStart kind r.filename (ownerTitle context r.directory) := by
  have hopen : ∀ tag, (Storage.openReference style context s tag kind (some destination)).2
      = attachmentStart kind r.filename (ownerTitle context r.directory) := by
    intro tag
    have hat : s.referenceAt style (some destination) = some r := by
      simp [Storage.State.referenceAt, hready.image, hreference]
    simp [Storage.openReference, hready.macroBody, hat]
  cases tag with
  | image target title =>
      cases htag
      simp only [Storage.step, hready.code, Storage.openTag, hopen]
  | link linkType target title =>
      rw [destinationOf] at htag
      split at htag
      · cases htag
      · next hemail =>
          cases htag
          simp only [Storage.step, hready.code, Storage.openTag, if_neg hemail, hopen]
  | _ => cases htag

/-! ## Up and down again -/

/-- The segments of a path that lead from one directory to another, both given by their names
below the same base: so far up, and then down by names. -/
structure Descent (segments : List String) (here there base : Place) (up : Nat) (down : Place) :
    Prop where
  segments_eq : segments = List.replicate up ".." ++ down.reverse
  place : down ++ (here ++ base).drop up = there ++ base

variable {segments : List String} {here there base down : Place} {up : Nat}

/-- A path that does not end going up leads nowhere else without a name. -/
theorem Descent.stays (h : Descent segments here there base up [])
    (hup : segments.getLast? ≠ some "..") : segments = [] ∧ here = there := by
  cases up with
  | zero => exact ⟨h.segments_eq, List.append_cancel_right h.place⟩
  | succ up =>
      refine absurd ?_ hup
      rw [h.segments_eq, List.replicate_succ']
      simp

/-- The last name is the one of the directory the path leads to. -/
theorem Descent.head {name : String} (h : Descent segments here there base up (name :: down)) :
    segments.getLast? = some name ∧ (there ++ base).head? = some name := by
  refine ⟨?_, ?_⟩
  · rw [h.segments_eq, List.reverse_cons, ← List.append_assoc, List.getLast?_concat]
  · rw [← h.place]
    rfl

/-- A path by name to the base itself does not start at or below it: it goes up first, or down
by more names. -/
theorem ne_nil_of_place_eq_base {name : String}
    (hsegments : segments = List.replicate up ".." ++ down.reverse)
    (hplace : name :: down ++ (here ++ base).drop up = base) : segments ≠ [] := by
  rintro rfl
  obtain ⟨hnone, hdown⟩ := List.append_eq_nil_iff.1 hsegments.symm
  obtain rfl := (List.replicate_eq_nil_iff "..").1 hnone
  obtain rfl := List.reverse_eq_nil_iff.1 hdown
  have hlength := congrArg List.length hplace
  simp only [List.drop_zero, List.length_append, List.length_singleton] at hlength
  omega

/-- Where the page of a file is, seen from a document: the directory the path leads to, or the
one around it if that is the attachments folder. -/
theorem descent_of_place {folder : String} {names : Place} {path : List Char}
    (hsegments : directoryPart folder path
      = List.replicate up ".." ++ dropFolder folder names.reverse)
    (hup : (directoryPart folder path).getLast? ≠ some "..")
    (hhere : folder ∉ here) (hthere : folder ∉ there)
    (hplace : names ++ (here ++ base).drop up = there ++ base
        ∧ (there = [] → directoryPart folder path = [] ∨ base.head? ≠ some folder)
      ∨ names ++ (here ++ base).drop up = folder :: (there ++ base)) :
    ∃ down, Descent (directoryPart folder path) here there base up down := by
  cases names with
  | nil =>
      rcases hplace with ⟨hplace, _⟩ | hplace
      · exact ⟨[], hsegments, hplace⟩
      -- the path stays in the document's directory, which is no attachments folder
      · have hfolder : Descent (directoryPart folder path) here (folder :: there) base up [] :=
          ⟨hsegments, hplace⟩
        obtain ⟨_, rfl⟩ := hfolder.stays hup
        exact absurd List.mem_cons_self hhere
  | cons name rest =>
      rw [List.reverse_cons, dropFolder_concat] at hsegments
      split at hsegments
      · next hname =>
          subst hname
          rcases hplace with ⟨hplace, hbase⟩ | hplace
          -- a name was taken off that is no attachments folder's: it could be the source
          -- directory's only
          · cases there with
            | cons first more =>
                obtain ⟨rfl, _⟩ := List.cons.inj hplace
                exact absurd List.mem_cons_self hthere
            | nil =>
                rcases hbase rfl with hempty | hhead
                · exact absurd hempty (ne_nil_of_place_eq_base hsegments hplace)
                · exact absurd (congrArg List.head? hplace.symm) hhead
          · exact ⟨rest, hsegments, (List.cons.inj hplace).2⟩
      · next hname =>
          rcases hplace with ⟨hplace, _⟩ | hplace
          · exact ⟨name :: rest, by rw [hsegments, List.reverse_cons], hplace⟩
          · exact absurd (List.cons.inj hplace).1 hname

/-! ## The page a reference names -/

/-- A macro in a document refers to the page of another one: it names no page, and that is the
document itself, or it names the page by its title. -/
def RefersTo (document owner : Document) (page : Option String) : Prop :=
  page = none ∧ owner = document ∨ page = some owner.title

/-- A path in a document leads to a file, by the name of the file. -/
structure Addresses (fs : FileSystem) (source : String) (path : List Char) (file : String) :
    Prop where
  relative : Relative path
  /-- By its segments, from the directory of the document. -/
  resolves : lexically (fs.placeOf source).tail path = fs.placeOf file
  ends : (segmentsOf path).getLast? = (fileName file).map String.toList

/-- A directory that ends in a name belongs to the page of that name. -/
theorem ownerTitle_of_getLast? {context : Context} {name : String}
    (h : segments.getLast? = some name) :
    ownerTitle context (.ofSegments segments) = some name := by
  rw [← h, ← pageTitle_ofSegments]
  cases segments with
  | nil => cases h
  | cons first more => rfl

/-- The files beside a document belong to the page of its directory. -/
theorem refersTo_indexDocument {scanner : Scanner} {folder : Folder} {entries : Keyed Node}
    {document : Document} (h : document ∈ scanner.documentsAt folder entries) :
    RefersTo document (scanner.indexDocument folder entries)
      (ownerTitle document.context .current) := by
  rcases List.mem_cons.1 h with rfl | hchild
  · exact Or.inl ⟨rfl, rfl⟩
  · obtain ⟨⟨name, node⟩, _, rfl⟩ := List.mem_map.1 hchild
    exact Or.inr rfl

/-- A path in a document to a file leads to the directory of the page the file is published
with. -/
theorem Addresses.exists_descent {scanner : Scanner} {fs : FileSystem} {document : Document}
    {folder around : Folder} {entries inside : Keyed Node} {source file : String}
    {path : List Char} (h : Addresses fs source path file)
    (hlies : Lies scanner fs here folder) (hentries : (Node.directory entries).WellNamed)
    (hdocument : document ∈ scanner.documentsAt folder entries)
    (hsource : document.source = .file source)
    (hlies' : Lies scanner fs there around) (hinside : (Node.directory inside).WellNamed)
    (hfile : file ∈ scanner.attachments around inside) (hfolder : scanner.attachmentsFolder ≠ "..")
    (hup : (directoryPart scanner.attachmentsFolder path).getLast? ≠ some "..")
    (hbase : there = [] → directoryPart scanner.attachmentsFolder path = []
      ∨ (fs.placeOf scanner.sourceDirectory).head? ≠ some scanner.attachmentsFolder
      ∨ (fs.placeOf file).tail ≠ fs.placeOf scanner.sourceDirectory) :
    ∃ name up down, ProperName name ∧ fileName file = some name
      ∧ (segmentsOf path).getLast? = some name.toList
      ∧ Descent (directoryPart scanner.attachmentsFolder path) here there
        (fs.placeOf scanner.sourceDirectory) up down := by
  obtain ⟨name, hname, hfileName, hplace⟩ := exists_place_of_mem_attachments hlies' hinside hfile
  have hends : (segmentsOf path).getLast? = some name.toList := by
    rw [h.ends, hfileName]
    rfl
  obtain ⟨up, names, hsegments, hleads⟩ := directoryPart_leads hfolder hname hends
  have hresolves := h.resolves
  rw [tail_placeOf_source hlies hentries hdocument hsource, hleads] at hresolves
  have hwhere : names ++ (here ++ fs.placeOf scanner.sourceDirectory).drop up
        = there ++ fs.placeOf scanner.sourceDirectory
        ∧ (there = [] → directoryPart scanner.attachmentsFolder path = []
          ∨ (fs.placeOf scanner.sourceDirectory).head? ≠ some scanner.attachmentsFolder)
      ∨ names ++ (here ++ fs.placeOf scanner.sourceDirectory).drop up
        = scanner.attachmentsFolder :: (there ++ fs.placeOf scanner.sourceDirectory) := by
    rcases hplace with hplace | hplace
    -- the file is in the directory of its page
    · rw [hplace] at hresolves
      refine Or.inl ⟨(List.cons.inj hresolves).2, ?_⟩
      rintro rfl
      rcases hbase rfl with hempty | hhead | hbelow
      · exact Or.inl hempty
      · exact Or.inr hhead
      · exact absurd (congrArg List.tail hplace) hbelow
    -- or in the attachments folder there
    · rw [hplace] at hresolves
      exact Or.inr (List.cons.inj hresolves).2
  obtain ⟨down, hdescent⟩ :=
    descent_of_place hsegments hup hlies.unattached hlies'.unattached hwhere
  exact ⟨name, up, down, hname, hfileName, hends, hdescent⟩

/-- The name of a directory is the title of its page. The source directory is called by its
name only if that is its title. -/
theorem Lies.title_of_head {scanner : Scanner} {fs : FileSystem} {folder : Folder}
    {names : List String} {name : String} (h : Lies scanner fs names folder)
    (hname : (names ++ base).head? = some name)
    (hbase : names = [] → base.head? = some scanner.rootTitle) : folder.title = name := by
  rw [h.title]
  cases names with
  | nil => exact Option.some.inj ((hbase rfl).symm.trans hname)
  | cons first more => exact Option.some.inj hname

/-- A path from a document to another directory names the page of that directory. -/
theorem refersTo_of_descent {scanner : Scanner} {fs : FileSystem} {document : Document}
    {folder around : Folder} {contents entries inside : Keyed Node}
    (hvisits : Visits scanner scanner.rootFolder contents here folder entries)
    (hvisits' : Visits scanner scanner.rootFolder contents there around inside)
    (hcontents : (Node.directory contents).WellNamed) (hlies : Lies scanner fs there around)
    (hdocument : document ∈ scanner.documentsAt folder entries)
    (hdescent : Descent segments here there base up down) (hup : segments.getLast? ≠ some "..")
    (hbase : there = [] → segments = [] ∨ base.head? = some scanner.rootTitle) :
    RefersTo document (scanner.indexDocument around inside)
      (ownerTitle document.context (.ofSegments segments)) := by
  cases down with
  | nil =>
      obtain ⟨rfl, rfl⟩ := hdescent.stays hup
      obtain ⟨rfl, rfl⟩ := hvisits.unique hvisits' hcontents
      exact refersTo_indexDocument hdocument
  | cons name rest =>
      obtain ⟨hlast, hhead⟩ := hdescent.head
      have hsome : segments ≠ [] := by
        rintro rfl
        cases hlast
      have htitle : around.title = name :=
        hlies.title_of_head hhead fun hthere => (hbase hthere).resolve_left hsome
      rw [ownerTitle_of_getLast? hlast, ← htitle]
      exact Or.inr rfl

/-- An image or a link to an attachment refers to the page it is published with, whatever was
written before. -/
theorem refers_to_owner {config : Config} {fs : FileSystem} {documents : List Document}
    {document owner : Document} {source file destination : String} {tag : Tag}
    {kind : ReferenceKind} {s : Storage.State} (hvalid : config.validate = .ok ())
    (htree : fs.root.WellNamed) (hscan : (scannerOf config).scan fs = .ok documents)
    (hdocument : document ∈ documents) (hsource : document.source = .file source)
    (howner : owner ∈ documents) (hfile : file ∈ owner.attachments)
    (haddresses : Addresses fs source (pathOf destination) file)
    (hup : (directoryPart config.attachmentsFolder (pathOf destination)).getLast? ≠ some "..")
    (hroot : owner.level = 0 → directoryPart config.attachmentsFolder (pathOf destination) = []
      ∨ (fs.placeOf config.sourceDirectory).head? = some config.rootTitle
        ∧ (config.rootTitle ≠ config.attachmentsFolder
          ∨ (fs.placeOf file).tail ≠ fs.placeOf config.sourceDirectory))
    (htag : destinationOf tag = some (kind, destination)) (hready : Ready s) :
    ∃ name page, fileName file = some name
      ∧ (Storage.step (styleOf config) document.context s (.opening tag)).2
        = attachmentStart kind name page
      ∧ RefersTo document owner page := by
  obtain ⟨contents, hlisted⟩ := Scanner.exists_tree hscan hdocument
  obtain ⟨⟨_, husable⟩, hcontents⟩ := FileSystem.wellNamed_of_tree htree hlisted
  have hnonempty : (scannerOf config).sourceDirectory ≠ "" := by simpa using husable
  obtain ⟨here, folder, entries, hvisits, hown⟩ := (Scanner.mem_scan hlisted hscan).1 hdocument
  obtain ⟨there, around, inside, hvisits', hown'⟩ := (Scanner.mem_scan hlisted hscan).1 howner
  obtain rfl := eq_indexDocument_of_mem_attachments hown' hfile
  have hlies : Lies (scannerOf config) fs here folder := hvisits.lies hnonempty hcontents
  have hlies' : Lies (scannerOf config) fs there around := hvisits'.lies hnonempty hcontents
  have htop : there = [] → around.level = 0 := by
    rintro rfl
    exact hlies'.level
  obtain ⟨name, up, down, hname, hfileName, hends, hdescent⟩ :=
    haddresses.exists_descent hlies (hvisits.wellNamed hcontents) hown hsource hlies'
      (hvisits'.wellNamed hcontents) hfile (Config.properName_of_validate hvalid).up hup (by
        intro hthere
        rcases hroot (htop hthere) with hempty | ⟨hhead, htitle | hbelow⟩
        · exact Or.inl hempty
        · refine Or.inr (Or.inl ?_)
          show (fs.placeOf config.sourceDirectory).head? ≠ some config.attachmentsFolder
          rw [hhead]
          exact mt Option.some.inj htitle
        · exact Or.inr (Or.inr hbelow))
  have hrefers := refersTo_of_descent hvisits hvisits' hcontents hlies' hown hdescent hup
    fun hthere => (hroot (htop hthere)).imp_right And.left
  have hne : pathOf destination ≠ [] := by
    intro hempty
    rw [hempty] at hends
    exact hname.says.1 (Option.some.inj hends).symm
  have hreference := reference_of_relative (styleOf config).attachmentsFolder hne
    haddresses.relative
  refine ⟨name, _, hfileName, ?_, hrefers⟩
  rw [step_of_reference hready htag hreference, filenameOf_of_getLast? hends hname.says.1,
    String.ofList_toList]
  rfl

/-! ## Trees to try references in -/

/-- A directory with a document and a file. -/
def guideEntries : Keyed Node := [("setup.md", .file .empty), ("shot.png", .file .empty)]

/-- A source directory with a file, and another one further down. -/
def docsEntries : Keyed Node := [("guide", .directory guideEntries), ("logo.png", .file .empty)]

/-- That source directory inside another directory. -/
def wiki : FileSystem :=
  { root := .directory [("wiki", .directory [("docs", .directory docsEntries)])]
    workingDirectory := [] }

theorem wellNamed_wiki : wiki.root.WellNamed := by
  have hguide : (Node.directory guideEntries).WellNamed :=
    .directory (by decide) (by decide) (by simp [guideEntries, Node.WellNamed.file])
  have hdocs : (Node.directory docsEntries).WellNamed :=
    .directory (by decide) (by decide) (by simp [docsEntries, hguide, Node.WellNamed.file])
  have hinner : (Node.directory [("docs", .directory docsEntries)]).WellNamed :=
    .directory (by decide) (List.forall_mem_singleton.2 (by decide)) (by simp [hdocs])
  exact .directory (by decide) (List.forall_mem_singleton.2 (by decide)) (by simp [hinner])

/-- The configuration of that directory, with a folder for attachments and a title. -/
def wikiConfig (folder : String) (title : Option String) : Config :=
  { Config.standard "wiki" with attachmentsFolder := folder, explicitTitle := title }

theorem scan_wiki (folder : String) (title : Option String) :
    (scannerOf (wikiConfig folder title)).scan wiki
      = .ok (inOrder ((scannerOf (wikiConfig folder title)).documentsOf
        (scannerOf (wikiConfig folder title)).rootFolder (.directory docsEntries))) := by
  have hsource : (scannerOf (wikiConfig folder title)).sourceDirectory = "wiki/docs" := by
    show Files.join "wiki" "docs" = "wiki/docs"
    decide
  have hfind : wiki.find "wiki/docs" true
      = .ok (.node ["docs", "wiki"] (.directory docsEntries)) :=
    Files.find_of_names ["wiki", "docs"] ⟨by decide, by decide⟩ (by decide) rfl (by decide) rfl
      (by simp)
  have htree : wiki.tree "wiki/docs" = .ok docsEntries :=
    FileSystem.tree_eq_ok_iff.2 ⟨_, docsEntries, hfind, rfl, rfl⟩
  exact Scanner.scan_eq_ok (hsource ▸ htree)

/-- The page of the source directory. -/
def top (title : String) : Document where
  source := .virtual
  identity := "index.md"
  title := title
  isIndex := true
  parentTitle := ""
  parentIdentity := ""
  level := 0
  attachments := ["wiki/docs/logo.png"]

/-- The page of the directory in it. -/
def guidePage : Document where
  source := .virtual
  identity := "guide/index.md"
  title := "guide"
  isIndex := true
  parentTitle := "docs"
  parentIdentity := "index.md"
  level := 1
  attachments := ["wiki/docs/guide/shot.png"]

/-- The page of the document there. -/
def setupPage : Document where
  source := .file "wiki/docs/guide/setup.md"
  identity := "guide/setup.md"
  title := "setup"
  isIndex := false
  parentTitle := "guide"
  parentIdentity := "guide/index.md"
  level := 2
  attachments := []

/-- A path out of the source directory and back into it by name. -/
theorem refers_to_owner_above :
    let path := pathOf "../../docs/logo.png?v=2"
    Addresses wiki "wiki/docs/guide/setup.md" path "wiki/docs/logo.png"
    ∧ ∃ name page, fileName "wiki/docs/logo.png" = some name
      ∧ (Storage.step (styleOf (wikiConfig "assets" none)) setupPage.context .start
          (.opening (.link .inline "../../docs/logo.png?v=2" "Logo"))).2
        = attachmentStart .link name page
      ∧ RefersTo setupPage (top "docs") page := by
  intro path
  have haddresses : Addresses wiki "wiki/docs/guide/setup.md" path "wiki/docs/logo.png" :=
    ⟨by decide, by decide +kernel, by decide⟩
  have hvalid : (wikiConfig "assets" none).validate = .ok () := by rfl
  exact ⟨haddresses, refers_to_owner hvalid wellNamed_wiki (scan_wiki "assets" none)
    (mem_inOrder.2 (by decide +kernel)) rfl (mem_inOrder.2 (by decide +kernel))
    List.mem_cons_self haddresses (by decide)
    (fun _ => Or.inr ⟨by decide +kernel, Or.inl (by decide +kernel)⟩) rfl ⟨rfl, rfl, rfl⟩⟩

/-! ## References to other pages -/

/-- Whether a destination refers to the page of the file it leads to, in every document that
has it. -/
def Directed (config : Config) (fs : FileSystem) (destination : String) : Prop :=
  ∀ documents, (scannerOf config).scan fs = .ok documents →
  ∀ document ∈ documents, ∀ source, document.source = .file source →
  ∀ owner ∈ documents, ∀ file ∈ owner.attachments,
    Relative (pathOf destination) →
    lexically (fs.placeOf source).tail (pathOf destination) = fs.placeOf file →
  ∀ tag kind s, destinationOf tag = some (kind, destination) → Ready s →
    ∃ name page, (Storage.step (styleOf config) document.context s (.opening tag)).2
        = attachmentStart kind name page
      ∧ RefersTo document owner page

/-- An image that does not end in a reference to the owner's page refers to another one. -/
theorem not_directed_of_image {config : Config} {fs : FileSystem} {documents : List Document}
    {document owner : Document} {source file destination : String}
    (hscan : (scannerOf config).scan fs = .ok documents) (hdocument : document ∈ documents)
    (hsource : document.source = .file source) (howner : owner ∈ documents)
    (hfile : file ∈ owner.attachments) (hother : owner ≠ document)
    (hrelative : Relative (pathOf destination))
    (hresolves : lexically (fs.placeOf source).tail (pathOf destination) = fs.placeOf file)
    (himage : ¬ (Storage.pageReference owner.title).toList
      <:+ (Storage.step (styleOf config) document.context .start
        (.opening (.image destination ""))).2.toList) : ¬ Directed config fs destination := by
  intro hdirected
  obtain ⟨name, page, hstep, ⟨_, hself⟩ | hpage⟩ := hdirected documents hscan document hdocument
    source hsource owner howner file hfile hrelative hresolves (.image destination "") .image
    .start rfl ⟨rfl, rfl, rfl⟩
  · exact hother hself
  · refine himage ⟨("<ac:image><ri:attachment ri:filename=\"" ++ Xml.escape name ++ "\">").toList,
      ?_⟩
    rw [hstep, hpage]
    simp [attachmentStart]

/-- A page that is reached by name is called by its directory, not by its title. -/
theorem not_directed_of_title :
    ¬ Directed (wikiConfig "assets" (some "Handbook")) wiki "../../docs/logo.png" :=
  not_directed_of_image (scan_wiki _ _) (mem_inOrder.2 (by decide +kernel : setupPage ∈ _)) rfl
    (mem_inOrder.2 (by decide +kernel : top "Handbook" ∈ _)) List.mem_cons_self (by decide)
    (by decide) (by decide +kernel) (by decide +kernel)

/-- A source directory with the name of the attachments folder is taken for one. -/
theorem not_directed_of_folder :
    ¬ Directed (wikiConfig "docs" none) wiki "../../../wiki/docs/logo.png" :=
  not_directed_of_image (scan_wiki _ _) (mem_inOrder.2 (by decide +kernel : setupPage ∈ _)) rfl
    (mem_inOrder.2 (by decide +kernel : top "docs" ∈ _)) List.mem_cons_self (by decide)
    (by decide) (by decide +kernel) (by decide +kernel)

/-- A path that only goes up names no page. -/
theorem not_directed_of_up : ¬ Directed (wikiConfig "assets" none) wiki "../logo.png" :=
  not_directed_of_image (scan_wiki _ _) (mem_inOrder.2 (by decide +kernel : setupPage ∈ _)) rfl
    (mem_inOrder.2 (by decide +kernel : top "docs" ∈ _)) List.mem_cons_self (by decide)
    (by decide) (by decide +kernel) (by decide +kernel)

/-- A file with a slash behind it is taken for a directory. -/
theorem not_directed_of_slash : ¬ Directed (wikiConfig "assets" none) wiki "shot.png/" :=
  not_directed_of_image (scan_wiki _ _) (mem_inOrder.2 (by decide +kernel : setupPage ∈ _)) rfl
    (mem_inOrder.2 (by decide +kernel : guidePage ∈ _)) List.mem_cons_self (by decide)
    (by decide) (by decide +kernel) (by decide +kernel)

/-- References go to other pages by a name that is no title, past a source directory that is
taken for the attachments folder, up without a name, and through a slash at the end. -/
theorem not_directed :
    wiki.root.WellNamed
    ∧ ((wikiConfig "assets" (some "Handbook")).validate = .ok ()
      ∧ ¬ Directed (wikiConfig "assets" (some "Handbook")) wiki "../../docs/logo.png")
    ∧ ((wikiConfig "docs" none).validate = .ok ()
      ∧ ¬ Directed (wikiConfig "docs" none) wiki "../../../wiki/docs/logo.png")
    ∧ (wikiConfig "assets" none).validate = .ok ()
      ∧ ¬ Directed (wikiConfig "assets" none) wiki "../logo.png"
      ∧ ¬ Directed (wikiConfig "assets" none) wiki "shot.png/" :=
  ⟨wellNamed_wiki, ⟨rfl, not_directed_of_title⟩, ⟨rfl, not_directed_of_folder⟩, rfl,
    not_directed_of_up, not_directed_of_slash⟩

end WikiPress.Sync
