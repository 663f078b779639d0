import WikiPress.Proofs.Json.RoundTrip
import WikiPress.Proofs.Markup.Trees
import WikiPress.Proofs.Storage.Attachments
import WikiPress.Proofs.Sync.Owner
import WikiPress.Proofs.Sync.PassedOver
import WikiPress.Proofs.Sync.Schedule

/-!
# WikiPress.Proofs.Sync.MissingAttachments

What a run says about files that a document refers to in its own directory.

A run asks whether there is anything under the path (`mem_missing_iff`). What is published with the
page was decided by the scan before.

Design points:

* Nothing is said of what the scan passes over, though it is not published, and a link that leads
  nowhere is called missing, though it is. These are all the differences (`missing_iff`).
* Every one of them occurs, on one page that refers to a thing of each kind (`not_callsMissing`).
-/

namespace WikiPress.Sync

open WikiPress.Attachment (Reference reference)
open WikiPress.CommandLine (runnerOf scannerOf styleOf)
open WikiPress.Files (Allowed At FileSystem Node Place ProperName join stepsOf)
open WikiPress.Storage (Context Page Style named openedIn renderMarkdown)

/-! ## What is there -/

/-- Whether a path leads to a link that leads nowhere. -/
def DeadEnd (fs : FileSystem) (path : String) : Prop :=
  fs.has path = false ∧ ∃ place target, fs.find path false = .ok (.node place (.link target))

/-- What is published is there, unless it is such a link. -/
theorem Uploaded.deadEnd {fs : FileSystem} {owner : Document} {path : String}
    (h : Uploaded fs owner path) (hnone : fs.has path = false) : DeadEnd fs path := by
  obtain ⟨file, -, last, found, hfind, -⟩ := h
  by_cases hlink : ∃ target, found = .link target
  · obtain ⟨target, rfl⟩ := hlink
    exact ⟨hnone, last, target, hfind⟩
  · have hthere := FileSystem.has_iff.2 ⟨last, found,
      FileSystem.find_of_not_link hfind fun target hfound => hlink ⟨target, hfound⟩⟩
    rw [hnone] at hthere
    cases hthere

/-- Whether a path in a document leads to something, but to what a scan passes over. The scan knows
the document's directory by what is in front of the name in the document's own path. -/
def Disregarded (scanner : Scanner) (fs : FileSystem) (source directory path : String) : Prop :=
  fs.has (join directory path) = true
    ∧ ∃ around own here file place node, ProperName own ∧ source = join around own
      ∧ fs.find source false = .ok (.node (own :: here) file)
      ∧ fs.find (join directory path) false = .ok (.node place node)
      ∧ PassedOver scanner fs (join around scanner.attachmentsFolder) here path place node

/-- Where there is nothing under a path, going by what is published and what is passed over. -/
theorem Seat.has_eq_false_iff {scanner : Scanner} {fs : FileSystem} {owner : Document}
    {place here : Place} {entries : Keyed Node} {own source destination directory : String}
    {file : Node} {r : Reference}
    (h : Seat scanner fs owner place here entries) (hfolder : scanner.attachmentsFolder ≠ "..")
    (hindex : ".md".toList.isSuffixOf scanner.indexName.toList = true)
    (hown : ProperName own) (hsource : source = join (pathAt scanner.sourceDirectory place) own)
    (hentry : fs.find source false = .ok (.node (own :: here) file))
    (hreference : reference scanner.attachmentsFolder destination = some r)
    (hcurrent : r.directory = .current) :
    (fs.has (join directory r.path) = false
      ↔ (¬ Uploaded fs owner (join directory r.path) ∨ DeadEnd fs (join directory r.path))
        ∧ ¬ Disregarded scanner fs source directory r.path)
      ∧ (Disregarded scanner fs source directory r.path
        → ¬ Uploaded fs owner (join directory r.path)) := by
  have hseen : Disregarded scanner fs source directory r.path →
      ¬ Uploaded fs owner (join directory r.path) := by
    rintro ⟨-, around, own', here', file', last, found, -, haround, hother, hfind, hpassed⟩ hupload
    have hsame := hother.symm.trans hentry
    cases hsame
    rw [Files.join_eq_of_join_eq hown.not_absolute (haround.symm.trans hsource)] at hpassed
    exact (h.uploaded_iff hfolder hindex hreference hcurrent hfind).1 hupload hpassed
  refine ⟨⟨fun hnone => ⟨?_, fun hdisregarded => ?_⟩, ?_⟩, hseen⟩
  · by_cases hupload : Uploaded fs owner (join directory r.path)
    · exact .inr (hupload.deadEnd hnone)
    · exact .inl hupload
  · rw [hdisregarded.1] at hnone
    cases hnone
  · rintro ⟨hmissing, hregarded⟩
    by_contra hthere
    rw [Bool.not_eq_false] at hthere
    obtain ⟨entry, node, hfind⟩ := FileSystem.exists_entry hthere
    have hupload : Uploaded fs owner (join directory r.path) :=
      (h.uploaded_iff hfolder hindex hreference hcurrent hfind).2 fun hpassed =>
        hregarded ⟨hthere, _, own, here, file, entry, node, hown, hsource, hentry, hfind, hpassed⟩
    rcases hmissing with hnot | ⟨hnone, -⟩
    · exact hnot hupload
    · rw [hthere] at hnone
      cases hnone

/-! ## What is reported -/

section Reported

variable {folder : String} {r : Reference}

/-- What a writer reports is what destinations name. -/
theorem exists_named_of_mem_openedIn {tags : List Markup.Tag} {es : List Markup.Event}
    (h : r ∈ openedIn folder tags es) : ∃ tag, named folder tag = some r := by
  induction es generalizing tags with
  | nil => cases h
  | cons e es ih =>
      rcases List.mem_append.1 h with hopened | hrest
      · rw [Option.mem_toList] at hopened
        cases e with
        | opening tag => exact ⟨tag, (Storage.rewritten_eq_some_iff.1 hopened).2⟩
        | _ => cases hopened
      · exact ih hrest

theorem exists_destination {style : Style} {context : Context} {text : String}
    (h : r ∈ (renderMarkdown style context text).attachments) :
    ∃ destination, reference style.attachmentsFolder destination = some r := by
  have hwritten : (renderMarkdown style context text).attachments
      = openedIn style.attachmentsFolder [] (Markdown.events text) :=
    Storage.attachments_write style context (Markup.wellShaped_events (Markdown.parse text))
  rw [hwritten] at h
  obtain ⟨tag, hnamed⟩ := exists_named_of_mem_openedIn h
  cases tag with
  | image destination title => exact ⟨destination, hnamed⟩
  | link kind destination title =>
      rw [named] at hnamed
      split at hnamed
      · cases hnamed
      · exact ⟨destination, hnamed⟩
  | _ => cases hnamed

end Reported

/-! ## What is called missing -/

section Missing

variable {σ : Type} {publisher : Publisher σ} {p : Progress σ} {config : Config} {dryRun : Bool}
  {fs : FileSystem} {documents : List Document} {document owner : Document} {page : Page}
  {source directory : String} {r : Reference}

/-- A file of the document's own directory is called missing if there is nothing under its path. -/
theorem mem_missing_iff {runner : Runner} (hfiles : publisher.files p.remote = fs)
    (hsource : document.source = .file source) (hparent : Files.parent source = some directory)
    (hpage : runner.render fs document = .ok page) (hr : r ∈ page.attachments)
    (hcurrent : r.directory = .current) :
    ⟨document.identity, r.path⟩ ∈ (runner.syncDocument publisher document p).2.1
      ↔ fs.has (join directory r.path) = false := by
  have hpath : document.path.bind Files.parent = some directory := by
    rw [Document.path, hsource]
    exact hparent
  rw [missing_syncDocument, hfiles, Runner.missingOf, hpage]
  simp only [missingAttachments, hpath, List.mem_map, List.mem_filter, Bool.and_eq_true,
    beq_iff_eq, Bool.not_eq_true']
  constructor
  · rintro ⟨other, ⟨-, -, hnone⟩, hsame⟩
    have hother : other.path = r.path := congrArg MissingAttachment.path hsame
    rw [← hother]
    exact hnone
  · intro hnone
    exact ⟨r, ⟨hr, hcurrent, hnone⟩, rfl⟩

/-- What a document reports was read from its file, as what a destination names. -/
theorem exists_read_of_render (hsource : document.source = .file source)
    (hpage : (runnerOf config dryRun).render fs document = .ok page) (hr : r ∈ page.attachments) :
    (∃ content, fs.read source = .ok content)
      ∧ ∃ destination, reference config.attachmentsFolder destination = some r := by
  rw [Runner.render, hsource] at hpage
  refine ⟨read_of_renderFile hpage, ?_⟩
  simp only [Storage.renderFile] at hpage
  cases htext : fs.readText source with
  | error e => simp [htext] at hpage
  | ok text =>
      rw [htext] at hpage
      cases hpage
      exact exists_destination hr

/-- **Files are called missing that are not published with the page, and links that lead
nowhere, except what the scan passes over.** -/
theorem missing_iff (hvalid : config.validate = .ok ()) (hroot : fs.root.WellNamed)
    (hscan : (scannerOf config).scan fs = .ok documents) (hfiles : publisher.files p.remote = fs)
    (hdocument : document ∈ documents) (hsource : document.source = .file source)
    (howner : owner ∈ documents) (howned : document.OwnedBy owner)
    (hpage : (runnerOf config dryRun).render fs document = .ok page) (hr : r ∈ page.attachments)
    (hcurrent : r.directory = .current) :
    ∃ directory, Files.parent source = some directory ∧
      let path := join directory r.path
      let disregarded := Disregarded (scannerOf config) fs source directory r.path
      (⟨document.identity, r.path⟩
          ∈ ((runnerOf config dryRun).syncDocument publisher document p).2.1
        ↔ (¬ Uploaded fs owner path ∨ DeadEnd fs path) ∧ ¬ disregarded)
      ∧ (disregarded → ¬ Uploaded fs owner path) := by
  obtain ⟨⟨content, hread⟩, destination, hreference⟩ := exists_read_of_render hsource hpage hr
  obtain ⟨place, here, entries, own, file, hseat, hown, hpath, hentry, directory, hparent⟩ :=
    exists_seat hroot hscan hdocument howner howned hsource hread
  refine ⟨directory, hparent, ?_⟩
  intro path disregarded
  rw [mem_missing_iff hfiles hsource hparent hpage hr hcurrent]
  exact hseat.has_eq_false_iff (Config.properName_of_validate hvalid).up
    (Config.suffix_of_validate hvalid) hown hpath hentry hreference hcurrent

end Missing

/-! ## A page with references to all kinds of things -/

/-- A page with references to all kinds of things. -/
def shelfText : String :=
  "[](b.md)[](.k.png)[](sub)[](gone.png)[](assets/y.png)[](.assets/x.png)[](stock/z.png)"

/-- A source directory with these things beside the page. -/
def shelfContents : Keyed Node :=
  [("a.md", .file shelfText.toUTF8), ("b.md", .file .empty), (".k.png", .file .empty),
    ("sub", .directory []), ("gone.png", .link "gone"), ("assets", .link "../other"),
    (".assets", .directory [("x.png", .file .empty)]),
    ("stock", .directory [("z.png", .file .empty)])]

/-- The source directory and another one beside it. One directory may not be listed. -/
def shelf : FileSystem where
  root := .directory [("docs", .directory shelfContents),
    ("other", .directory [("y.png", .file .empty)])]
  workingDirectory := []
  closed := fun place => place == ["stock", "docs"]

/-- What can be listed of the source directory. -/
def shelfListed : Keyed Node :=
  shelf.listedEntries "docs" ["docs"] shelfContents

/-- The configuration with a folder for attachments. -/
def shelfConfig (folder : String) : Config :=
  { Config.standard "" with attachmentsFolder := folder }

theorem wellNamed_shelf : shelf.root.WellNamed := by
  have hsub : (Node.directory []).WellNamed := .directory (by decide) (by simp) (by simp)
  have hfile (name : String) (hname : ProperName name) :
      (Node.directory [(name, .file .empty)]).WellNamed :=
    .directory (by simp) (List.forall_mem_singleton.2 hname) (by simp [Node.WellNamed.file])
  have hdocs : (Node.directory shelfContents).WellNamed := by
    refine .directory (by decide) (by decide) ?_
    simp [shelfContents, hsub, hfile "x.png" (by decide), hfile "z.png" (by decide),
      Node.WellNamed.file, Node.WellNamed.link]
  exact .directory (by decide) (by decide) (by simp [hfile "y.png" (by decide), hdocs])

/-- The page, and the index above it. -/
def shelfPage (folder : String) : Document := (scannerOf (shelfConfig folder)).childAt [] "a.md"

def shelfIndex (folder : String) : Document :=
  (scannerOf (shelfConfig folder)).indexAt [] shelfListed

theorem sourceDirectory_shelf (folder : String) :
    (scannerOf (shelfConfig folder)).sourceDirectory = "docs" := by
  show join "" "docs" = "docs"
  decide

theorem source_shelfPage (folder : String) : (shelfPage folder).source = .file "docs/a.md" := by
  rw [shelfPage, Scanner.source_childAt, sourceDirectory_shelf]
  decide

theorem tree_shelf (folder : String) :
    shelf.tree (scannerOf (shelfConfig folder)).sourceDirectory = .ok shelfListed := by
  rw [sourceDirectory_shelf]
  have hfind : shelf.find "docs" true = .ok (.node ["docs"] (.directory shelfContents)) :=
    Files.find_of_names ["docs"] ⟨by decide, by decide⟩ (by decide) rfl (by decide) rfl (by simp)
  exact FileSystem.tree_eq_ok_iff.2 ⟨["docs"], shelfContents, hfind, by decide, rfl⟩

theorem scan_shelf (folder : String) : ∃ documents,
    (scannerOf (shelfConfig folder)).scan shelf = .ok documents
      ∧ shelfPage folder ∈ documents ∧ shelfIndex folder ∈ documents := by
  have hscan := Scanner.scan_eq_ok (tree_shelf folder)
  have hvisible : VisibleFile shelfListed "a.md" :=
    visibleFile_listedEntries.2 ⟨_, List.mem_cons_self, by decide, rfl⟩
  have hother : "a.md" ≠ (scannerOf (shelfConfig folder)).indexName :=
    show "a.md" ≠ "index.md" by decide
  exact ⟨_, hscan, (Scanner.mem_scan_iff (tree_shelf folder) hscan).2
      ⟨[], shelfListed, .source, .inr ⟨"a.md", hvisible, hother, by decide, rfl⟩⟩,
    mem_indexAt (tree_shelf folder) hscan .source⟩

theorem ownedBy_shelf (folder : String) : (shelfPage folder).OwnedBy (shelfIndex folder) :=
  ⟨rfl, Scanner.identity_indexAt.trans Scanner.parentIdentity_childAt.symm⟩

theorem render_shelf (folder : String) (dryRun : Bool) :
    (runnerOf (shelfConfig folder) dryRun).render shelf (shelfPage folder)
      = .ok (renderMarkdown (styleOf (shelfConfig folder)) (shelfPage folder).context
        shelfText) := by
  have hnode : shelf.node "docs/a.md" = .ok (.file shelfText.toUTF8) :=
    Files.node_of_names ["docs", "a.md"] ⟨by decide, by decide⟩ (by decide) rfl (by decide) rfl
      (by simp)
  have htext : shelf.readText "docs/a.md" = .ok shelfText := by
    simp only [FileSystem.readText, FileSystem.read, hnode, bind, Except.bind,
      Json.fromUTF8?_toUTF8]
  simp only [Runner.render, source_shelfPage, Storage.renderFile, htext]
  rfl

theorem at_shelf : At shelf "docs" ["docs"] Files.linkLimit :=
  ⟨⟨by decide, by decide⟩, .into ⟨_, rfl⟩ (by decide) rfl (by simp) .arrived⟩

theorem seat_shelf (folder : String) :
    Seat (scannerOf (shelfConfig folder)) shelf (shelfIndex folder) [] ["docs"] shelfContents := by
  refine ⟨?_, ?_, ⟨Files.linkLimit, ?_⟩, rfl⟩
  · rw [pathAt, List.foldr_nil, sourceDirectory_shelf]
    rfl
  · exact wellNamed_shelf.at? (show Node.at? ["docs"] shelf.root = _ from rfl)
  · show At shelf (scannerOf (shelfConfig folder)).sourceDirectory _ _
    rw [sourceDirectory_shelf]
    exact at_shelf

/-- Whether the page refers to a path as one of its own directory. -/
def Refers (folder path : String) : Prop :=
  ∃ r ∈ (renderMarkdown (styleOf (shelfConfig folder)) (shelfPage folder).context
    shelfText).attachments, r.directory = .current ∧ r.path = path

instance (folder path : String) : Decidable (Refers folder path) :=
  inferInstanceAs (Decidable (∃ r ∈ _, _))

theorem refers_shelf :
    (∀ path ∈ ["b.md", ".k.png", "sub", "gone.png", "assets/y.png"], Refers "assets" path)
      ∧ Refers ".assets" ".assets/x.png" ∧ Refers "stock" "stock/z.png" := by
  decide +kernel

/-- A page beside the page is not called missing, and is not published. -/
theorem missing_iff_shelf :
    (shelfConfig "assets").validate = .ok () ∧ shelf.root.WellNamed
    ∧ ∃ documents page, (scannerOf (shelfConfig "assets")).scan shelf = .ok documents
      ∧ shelfPage "assets" ∈ documents ∧ (shelfPage "assets").source = .file "docs/a.md"
      ∧ shelfIndex "assets" ∈ documents ∧ (shelfPage "assets").OwnedBy (shelfIndex "assets")
      ∧ (runnerOf (shelfConfig "assets") false).render shelf (shelfPage "assets") = .ok page
      ∧ ∃ r ∈ page.attachments, r.directory = .current ∧ r.path = "b.md"
        ∧ ∃ directory, Files.parent "docs/a.md" = some directory ∧
          let path := join directory r.path
          let disregarded := Disregarded (scannerOf (shelfConfig "assets")) shelf "docs/a.md"
            directory r.path
          (⟨(shelfPage "assets").identity, r.path⟩
              ∈ ((runnerOf (shelfConfig "assets") false).syncDocument (refusing shelf [])
                (shelfPage "assets") ⟨{ path := "state.json" }, ()⟩).2.1
            ↔ (¬ Uploaded shelf (shelfIndex "assets") path ∨ DeadEnd shelf path) ∧ ¬ disregarded)
          ∧ (disregarded → ¬ Uploaded shelf (shelfIndex "assets") path) := by
  obtain ⟨documents, hscan, hpage, hindex⟩ := scan_shelf "assets"
  obtain ⟨r, hr, hcurrent, hpath⟩ := refers_shelf.1 "b.md" (by simp)
  have hvalid : (shelfConfig "assets").validate = .ok () := rfl
  exact ⟨hvalid, wellNamed_shelf, documents, _, hscan, hpage, source_shelfPage _, hindex,
    ownedBy_shelf _, render_shelf _ _, r, hr, hcurrent, hpath,
    missing_iff hvalid wellNamed_shelf hscan rfl hpage (source_shelfPage _) hindex
      (ownedBy_shelf _) (render_shelf _ _) hr hcurrent⟩

/-- Whether those references under a path are called missing that lead to nothing that is
published, in every document that makes them. -/
def CallsMissing (config : Config) (fs : FileSystem) (path : String) : Prop :=
  ∀ documents, (scannerOf config).scan fs = .ok documents →
  ∀ document ∈ documents, ∀ source, document.source = .file source →
  ∀ directory, Files.parent source = some directory →
  ∀ owner ∈ documents, document.OwnedBy owner →
  ∀ dryRun page, (runnerOf config dryRun).render fs document = .ok page →
  ∀ r ∈ page.attachments, r.directory = .current → r.path = path →
  ∀ (σ : Type) (publisher : Publisher σ) p, publisher.files p.remote = fs →
    (⟨document.identity, path⟩ ∈ ((runnerOf config dryRun).syncDocument publisher document p).2.1
      ↔ ¬ Uploaded fs owner (join directory path))

/-- What would have to hold of the page. -/
theorem CallsMissing.has_iff {folder path : String}
    (h : CallsMissing (shelfConfig folder) shelf path) (hrefers : Refers folder path) :
    shelf.has (join "docs" path) = false
      ↔ ¬ Uploaded shelf (shelfIndex folder) (join "docs" path) := by
  obtain ⟨documents, hscan, hpage, hindex⟩ := scan_shelf folder
  obtain ⟨r, hr, hcurrent, rfl⟩ := hrefers
  have hparent : Files.parent "docs/a.md" = some "docs" := by decide
  let p : Progress Unit := ⟨{ path := "state.json" }, ()⟩
  have hfiles : (refusing shelf []).files p.remote = shelf := rfl
  have hcalled := h documents hscan _ hpage _ (source_shelfPage folder) _ hparent _ hindex
    (ownedBy_shelf folder) false _ (render_shelf folder false) r hr hcurrent rfl Unit _ p hfiles
  have hmissing := mem_missing_iff hfiles (source_shelfPage folder) hparent
    (render_shelf folder false) hr hcurrent
  exact hmissing.symm.trans hcalled

/-- What the page refers to is published unless it is passed over. -/
theorem uploaded_shelf_iff {folder path : String} {last : Place} {found : Node}
    (hfolder : folder ≠ "..") (hrefers : Refers folder path)
    (hfind : shelf.find (join "docs" path) false = .ok (.node last found)) :
    Uploaded shelf (shelfIndex folder) (join "docs" path)
      ↔ ¬ PassedOver (scannerOf (shelfConfig folder)) shelf (join "docs" folder) ["docs"] path last
        found := by
  obtain ⟨r, hr, hcurrent, rfl⟩ := hrefers
  obtain ⟨destination, hreference⟩ := exists_destination hr
  have hindex : ".md".toList.isSuffixOf (scannerOf (shelfConfig folder)).indexName.toList = true :=
    show ".md".toList.isSuffixOf "index.md".toList = true by decide
  have huploaded := (seat_shelf folder).uploaded_iff hfolder hindex hreference hcurrent hfind
  rwa [pathAt, List.foldr_nil, sourceDirectory_shelf] at huploaded

/-- What is there and is passed over is not called missing, and is not published. -/
theorem not_callsMissing_of_passedOver {folder path : String} {last : Place} {found : Node}
    (hfolder : folder ≠ "..") (hrefers : Refers folder path)
    (hfind : shelf.find (join "docs" path) false = .ok (.node last found))
    (hplain : ∀ target, found ≠ .link target)
    (hpassed : PassedOver (scannerOf (shelfConfig folder)) shelf (join "docs" folder) ["docs"] path
      last found) :
    ¬ CallsMissing (shelfConfig folder) shelf path := by
  intro h
  have hthere : shelf.has (join "docs" path) = true :=
    FileSystem.has_iff.2 ⟨last, found, FileSystem.find_of_not_link hfind hplain⟩
  have hnone := (h.has_iff hrefers).2 fun hupload =>
    (uploaded_shelf_iff hfolder hrefers hfind).1 hupload hpassed
  rw [hthere] at hnone
  cases hnone

/-- What is beside the page. -/
theorem find_shelf {name : String} {found : Node} (hname : Allowed name)
    (hfound : Keyed.find? name shelfContents = some found) :
    shelf.find (join "docs" name) false = .ok (.node [name, "docs"] found) := by
  have hfind := ((seat_shelf "assets").find_name_iff hname.proper).2
    ⟨hname, rfl, Keyed.mem_of_find? hfound⟩
  rwa [pathAt, List.foldr_nil, sourceDirectory_shelf] at hfind

/-- A link out of the source directory leads to a file in another one. -/
theorem find_shelf_astray : shelf.find (join "docs" "assets/y.png") false
    = .ok (.node ["y.png", "other"] (.file .empty)) := by
  have hsteps : stepsOf (join "docs" "assets/y.png")
      = [.into "docs", .into "assets"] ++ [.into "y.png"] := by decide
  have htarget : stepsOf "../other" ++ [] = [.up, .into "other"] := by decide
  have hleads : Files.Leads shelf.root Files.linkLimit [] [.into "docs", .into "assets"] ["other"]
      39 := by
    refine .into ⟨_, rfl⟩ (by decide) rfl (by simp) (.link ⟨_, rfl⟩ (by decide) rfl ?_)
    rw [if_neg (by decide), htarget]
    exact .up ⟨_, rfl⟩ rfl (.into ⟨_, rfl⟩ (by decide) rfl (by simp) .arrived)
  rw [FileSystem.find, hsteps, Files.walkFrom_append ⟨by decide, by decide⟩ hleads rfl (by simp)]
  exact (Files.walk_names_iff [] rfl).2 ⟨by decide, rfl, rfl⟩

/-- What is in a directory beside the page. -/
theorem find_shelf_inside (folder name : String) {inner : Keyed Node} {found : Node}
    (hfolder : Allowed folder) (hname : Allowed name)
    (hinner : Keyed.find? folder shelfContents = some (.directory inner))
    (hfound : Keyed.find? name inner = some found) :
    shelf.find (join (join "docs" folder) name) false
      = .ok (.node [name, folder, "docs"] found) := by
  have hseat := seat_shelf folder
  have hfind := (hseat.find_attached_iff (Keyed.mem_of_find? hinner) hname.proper).2
    ⟨hfolder, hname, rfl, Keyed.mem_of_find? hfound⟩
  rwa [pathAt, List.foldr_nil, sourceDirectory_shelf] at hfind

/-- A link to a name that is free leads nowhere. -/
theorem has_shelf_gone : shelf.has (join "docs" "gone.png") = false := by
  have htarget : stepsOf "gone" ++ [] = [.into "gone"] := by decide
  have hfind : shelf.find (join "docs" "gone.png") true = .ok (.vacant ["docs"] "gone") := by
    rw [at_shelf.find_join rfl (by decide) (by decide), Files.walk, if_neg (by decide)]
    show Files.walk shelf.root true 39 ["docs"] _ (stepsOf "gone" ++ []) = _
    rw [htarget]
    exact Files.walk_into_free (by decide) rfl
  rw [FileSystem.has, FileSystem.node, hfind]
  rfl

theorem not_callsMissing_gone : ¬ CallsMissing (shelfConfig "assets") shelf "gone.png" := by
  intro h
  have hfind : shelf.find (join "docs" "gone.png") false
      = .ok (.node ["gone.png", "docs"] (.link "gone")) := find_shelf (by decide) rfl
  have hmem : join "docs" "gone.png" ∈ (shelfIndex "assets").attachments := by decide +kernel
  exact (h.has_iff (refers_shelf.1 _ (by simp))).1 has_shelf_gone ⟨_, hmem, _, _, hfind, hfind⟩

/-- Pages, hidden files, directories, files that only a link leads to and files in an attachments
folder that is hidden or may not be listed are not published, but they are there. A link that leads
nowhere is published and is not there. -/
theorem not_callsMissing :
    shelf.root.WellNamed
    ∧ ((shelfConfig "assets").validate = .ok ()
      ∧ ¬ CallsMissing (shelfConfig "assets") shelf "b.md"
      ∧ ¬ CallsMissing (shelfConfig "assets") shelf ".k.png"
      ∧ ¬ CallsMissing (shelfConfig "assets") shelf "sub"
      ∧ ¬ CallsMissing (shelfConfig "assets") shelf "assets/y.png"
      ∧ ¬ CallsMissing (shelfConfig "assets") shelf "gone.png")
    ∧ ((shelfConfig ".assets").validate = .ok ()
      ∧ ¬ CallsMissing (shelfConfig ".assets") shelf ".assets/x.png")
    ∧ (shelfConfig "stock").validate = .ok ()
      ∧ ¬ CallsMissing (shelfConfig "stock") shelf "stock/z.png" := by
  obtain ⟨hrefers, hhidden, hunlisted⟩ := refers_shelf
  refine ⟨wellNamed_shelf, ⟨rfl, ?page, ?hidden, ?directory, ?astray, not_callsMissing_gone⟩,
    ⟨rfl, ?closed⟩, rfl, ?unlisted⟩
  case page =>
    exact not_callsMissing_of_passedOver (by decide) (hrefers _ (by simp))
      (find_shelf (by decide) rfl) (by simp) (.markdown (by decide))
  case hidden =>
    exact not_callsMissing_of_passedOver (by decide) (hrefers _ (by simp))
      (find_shelf (by decide) rfl) (by simp) (.hidden (by decide))
  case directory =>
    exact not_callsMissing_of_passedOver (by decide) (hrefers _ (by simp))
      (find_shelf (by decide) rfl) (by simp) .directory
  case astray =>
    exact not_callsMissing_of_passedOver (by decide) (hrefers _ (by simp))
      find_shelf_astray (by simp) (.astray (by decide) (by decide) (by decide))
  case closed =>
    have hfind : shelf.find (join "docs" ".assets/x.png") false = _ :=
      find_shelf_inside ".assets" "x.png" (by decide) (by decide) rfl rfl
    refine not_callsMissing_of_passedOver (by decide) hhidden hfind (by simp) (.closed ?_)
    exact fun hopen => absurd hopen.visible (by decide)
  case unlisted =>
    have hfind : shelf.find (join "docs" "stock/z.png") false = _ :=
      find_shelf_inside "stock" "z.png" (by decide) (by decide) rfl rfl
    refine not_callsMissing_of_passedOver (by decide) hunlisted hfind (by simp) (.closed ?_)
    exact fun hopen => absurd hopen.listed (by decide)

end WikiPress.Sync
