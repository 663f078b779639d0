import WikiPress.Proofs.Sync.Filing
import WikiPress.Proofs.Sync.Forecast
import WikiPress.Proofs.Sync.Idempotence
import WikiPress.Proofs.Sync.Verdict

/-!
# WikiPress.Proofs.Sync.LastDraft

How far the pages at the publisher's are up to date after a run without failures.

A run decides by a page's body and the page above whether to publish it. So the last draft of
every document has its body and its place after the run. But its title, and the files published
with it, are those there were when the body or the place was last new: a change of the root title
or of an attached file alone goes unnoticed (`not_current`).

Design points:

* What the ledger says of a document is what the last draft says (`Faithful`), so a page is left
  alone if and only if the last draft agrees with it already (`settled_iff_agrees`).
* The title of a document that is not at the top is part of its identity, and only an index has
  files published with it. So these do not go out of date while the index name stays the same
  (`Sourced`, `Scanned.title_eq`).
-/

namespace WikiPress.Sync

open Relation (ReflTransGen)
open WikiPress.Files (FileSystem Node ProperName)

variable {σ : Type}

/-- The files a document is read from in a run: those there are when it has its turn. -/
def Runner.filesAt (runner : Runner) (publisher : Publisher σ) (documents : List Document)
    (start : Progress σ) (document : Document) : FileSystem :=
  publisher.files (runner.syncAll publisher
    ((inOrder documents).takeWhile fun d => d.identity ≠ document.identity) start).2.remote

/-- Whether a draft has a body, told by its digest, and goes below a page. -/
structure Filed.Agrees (filed : Filed) (body parentId : String) : Prop where
  hash : Digest.ofText filed.draft.body = Digest.ofText body
  parentId : filed.draft.parentId = parentId

/-- Whether a draft has a document's title and the files published with it as they are. -/
structure Filed.Shows (filed : Filed) (document : Document) (fs : FileSystem) : Prop where
  title : filed.draft.title = document.title
  contents : filed.contents = document.contents fs

/-- What the last draft of a document is after a run, given the last one before. -/
structure LastDraft (settings : Scanner → Prop) (scanner : Scanner) (document : Document)
    (fs : FileSystem) (body parentId : String) (before : Option Filed) (filed : Filed) :
    Prop where
  agrees : filed.Agrees body parentId
  /-- A page whose body or place is new shows the document as it is. -/
  renewed : (∀ earlier, before = some earlier → ¬ earlier.Agrees body parentId) →
    filed.Shows document fs
  /-- Any other page is left as it was published. -/
  kept : ∀ earlier, before = some earlier → earlier.Agrees body parentId → filed = earlier
  /-- The title is right as long as the index name and, at the top, the root title stay the same. -/
  title : (∀ other, settings other → other.indexName = scanner.indexName) →
    (document.level = 0 → ∀ other, settings other → other.rootTitle = scanner.rootTitle) →
    filed.draft.title = document.title
  /-- A page that is no index has no files published with it as long as the index name stays. -/
  contents : (∀ other, settings other → other.indexName = scanner.indexName) →
    document.isIndex = false → filed.contents = document.contents fs

section Run

variable {publisher : Publisher σ} {runner : Runner} {documents taken rest : List Document}
  {document : Document}

theorem filesAt_of_split (h : Hierarchy documents)
    (hsplit : inOrder documents = taken ++ document :: rest) (start : Progress σ) :
    runner.filesAt publisher documents start document
      = publisher.files (runner.syncAll publisher taken start).2.remote := by
  have htaken : ∀ d ∈ taken, decide (d.identity ≠ document.identity) = true := by
    intro d hd
    rw [decide_eq_true_eq]
    rintro heq
    exact h.not_mem_taken hsplit (heq ▸ List.mem_map_of_mem hd)
  rw [Runner.filesAt, hsplit, List.takeWhile_append_of_pos htaken]
  simp

/-- Files that publishing leaves as they are are the same at every turn. -/
theorem filesAt_of_steady {answer : Draft → Except PublishError String}
    (h : publisher.Steady answer) (start : Progress σ) :
    runner.filesAt publisher documents start document = publisher.files start.remote := by
  rw [Runner.filesAt]
  generalize List.takeWhile _ _ = taken
  induction taken generalizing start with
  | nil => rfl
  | cons first rest ih =>
      exact (ih _).trans (Takes.files_eq h (takes_syncDocument runner publisher first start))

/-- A run without failures leaves the last draft of a document that was settled before, and files
one for any other document, with its body, its place, its title and its files. -/
theorem filed_of_run (h : Hierarchy documents) (hmem : document ∈ documents)
    (hnamed : document.identity ≠ "") (hreal : runner.dryRun = false)
    {start : Progress (σ × List Filed)}
    (hok : (runner.run publisher.filing documents start).1.failed = 0) :
    let after := (runner.run publisher.filing documents start).2
    let fs := runner.filesAt publisher.filing documents start document
    let parentId := runner.pageAbove after.ledger document
    ∃ page, runner.render fs document = .ok page
      ∧ (Settled (start.ledger.entry document.identity) page.body parentId
          ∧ lastFiled document.identity after.remote.2
            = lastFiled document.identity start.remote.2
        ∨ ¬ Settled (start.ledger.entry document.identity) page.body parentId
          ∧ ∃ filed, lastFiled document.identity after.remote.2 = some filed
            ∧ filed.IsOf document ∧ filed.draft.body = page.body
            ∧ filed.draft.parentId = parentId ∧ filed.files = fs) := by
  intro after fs parentId
  obtain ⟨taken, rest, hsplit⟩ := List.append_of_mem (mem_inOrder.2 hmem)
  have hturn := turn_syncDocument runner publisher.filing h hsplit start
  have hend := run_of_split runner publisher.filing hsplit start
  have hbefore := lastFiled_syncAll runner publisher (h.not_mem_taken hsplit) start
  have hfs : fs = _ := filesAt_of_split h hsplit start
  have hparentId : parentId = _ := hturn.pageAbove_eq
  have hafter : lastFiled document.identity after.remote.2 = _ :=
    (congrArg (fun p => lastFiled document.identity p.remote.2) hend).trans
      (lastFiled_syncAll runner publisher
        (h.not_mem_rest hsplit (List.mem_append_right _ List.mem_cons_self)) _)
  have hknown := hturn.known_eq
  simp only at hturn
  generalize (runner.syncAll publisher.filing taken start).2 = p at *
  generalize runner.syncDocument publisher.filing document p = step at *
  obtain ⟨page, hpage, hcases⟩ :=
    hturn.takes.filed_of_not_failure hreal (Report.not_failure hok hturn.reported)
  rw [hknown, Ledger.known_of_named hnamed] at hcases
  refine ⟨page, hfs ▸ hpage, ?_⟩
  rw [hparentId, hafter]
  rcases hcases with ⟨hsettled, hsame⟩ | ⟨hsettled, id, hnew⟩
  · exact Or.inl ⟨hsettled, by rw [hsame, hbefore]⟩
  · let draft := document.draft (start.ledger.entry document.identity) page.body
      (runner.pageAbove p.ledger document)
    refine Or.inr ⟨hsettled, ⟨(draft, id), publisher.files p.remote.1⟩, ?_, ⟨rfl, rfl, rfl⟩,
      rfl, rfl, hfs.symm⟩
    rw [hnew, lastFiled, List.find?_cons_of_pos]
    exact decide_eq_true rfl

/-- What the ledger has of a document is settled if and only if the last draft agrees. -/
theorem settled_iff_agrees {filed : List Filed} {ledger : Ledger}
    (h : Faithful (filed.map Filed.accepted) ledger) (identity body parentId : String) :
    Settled (ledger.entry identity) body parentId
      ↔ ∃ last, lastFiled identity filed = some last ∧ last.Agrees body parentId := by
  have hentry := h.entries identity
  rw [lastAccepted_map] at hentry
  cases hlast : lastFiled identity filed with
  | none =>
      rw [hlast] at hentry
      constructor
      · intro hsettled
        rw [hentry] at hsettled
        exact absurd hsettled.published (by decide)
      · rintro ⟨_, hsome, _⟩
        cases hsome
  | some last =>
      rw [hlast] at hentry
      have hid : last.accepted.2 ≠ "" :=
        h.named _ (List.mem_map_of_mem (List.mem_of_find?_eq_some hlast))
      rw [hentry]
      constructor
      · exact fun hsettled => ⟨last, rfl, hsettled.hash, hsettled.parentId⟩
      · rintro ⟨_, hsome, hagrees⟩
        cases hsome
        exact ⟨by simpa [entryOf, Entry.isNew] using hid, hagrees.hash, hagrees.parentId⟩

/-- As long as settings stay the same, the last draft of a document has its title, and the one of
a page that is no index has its files, whatever is in these. -/
theorem Sourced.lasting {settings : Scanner → Prop} {filed : List Filed} {last : Filed}
    {scanner : Scanner} {fs : FileSystem} (h : Sourced settings filed)
    (hscanned : Scanned scanner fs documents) (hmem : document ∈ documents)
    (hlast : lastFiled document.identity filed = some last)
    (hindexName : ∀ other, settings other → other.indexName = scanner.indexName) :
    ((document.level = 0 → ∀ other, settings other → other.rootTitle = scanner.rootTitle) →
        last.draft.title = document.title)
      ∧ ∀ files, document.isIndex = false → last.contents = document.contents files := by
  obtain ⟨hfiled, hidentity⟩ := eq_of_lastFiled hlast
  obtain ⟨other, earlier, found, hsettings, hfound, again, hagain, hof⟩ := h last hfiled
  have hname := hindexName other hsettings
  have hsame : again.identity = document.identity := hof.identity.symm.trans hidentity
  constructor
  · intro hrootTitle
    rw [hof.title]
    exact hscanned.title_eq hfound hname hmem hagain hsame fun htop =>
      hrootTitle htop other hsettings
  · intro files hkind
    have hpage := (hscanned.isIndex_eq hfound hname hmem hagain hsame).trans hkind
    rw [Filed.contents, hof.attachments, hfound.attachments_eq_nil hagain hpage,
      Document.contents, hscanned.attachments_eq_nil hmem hkind]
    rfl

end Run

/-- After a run without failures the last draft of every document has its body and its place. It
shows the document as it is if one of them was new; otherwise it is the last one there was before
the run. Its title is right as long as the settings that give titles stay the same, and so are
the files of a page that is no index. -/
theorem last_draft_of_run {publisher : Publisher σ} (hpublisher : publisher.KeepsIds)
    {settings : Scanner → Prop} {path : String} {remote : σ} {s : Standing σ}
    (hs : ReflTransGen (Happens publisher settings) (opening path remote) s)
    {scanner : Scanner} {documents : List Document} (hsettings : settings scanner)
    (hscanned : Scanned scanner (publisher.files s.now.remote.1) documents)
    (hnamed : ∀ document ∈ documents, document.identity ≠ "") {runner : Runner}
    (hreal : runner.dryRun = false)
    (hok : (runner.run publisher.filing documents s.now).1.failed = 0) :
    let after := (runner.run publisher.filing documents s.now).2
    ∀ document ∈ documents,
      let fs := runner.filesAt publisher.filing documents s.now document
      ∃ page filed, runner.render fs document = .ok page
        ∧ lastFiled document.identity after.remote.2 = some filed
        ∧ LastDraft settings scanner document fs page.body
          (runner.pageAbove after.ledger document)
          (lastFiled document.identity s.now.remote.2) filed := by
  intro after document hmem fs
  obtain ⟨page, hpage, hcases⟩ :=
    filed_of_run hscanned.hierarchy hmem (hnamed document hmem) hreal hok
  have hagrees := settled_iff_agrees (faithful_of_happens hpublisher hs) document.identity
    page.body (runner.pageAbove after.ledger document)
  rcases hcases with ⟨hsettled, hsame⟩ | ⟨hnew, filed, hlast, hof, hbody, hparentId, hfiles⟩
  · obtain ⟨earlier, hearlier, hagree⟩ := hagrees.1 hsettled
    have hsourced := (Happens.sync runner hsettings hscanned hnamed).sourced
      (sourced_of_happens hs)
    have hlasting := hsourced.lasting hscanned hmem (hsame.trans hearlier)
    refine ⟨page, earlier, hpage, hsame.trans hearlier, ?_⟩
    exact {
      agrees := hagree
      renewed := fun hnone => absurd hagree (hnone earlier hearlier)
      kept := fun _ hother _ => Option.some.inj (hearlier.symm.trans hother)
      title := fun hindexName => (hlasting hindexName).1
      contents := fun hindexName => (hlasting hindexName).2 fs }
  · have hshows : filed.Shows document fs :=
      ⟨hof.title, by rw [Filed.contents, Document.contents, hof.attachments, hfiles]⟩
    refine ⟨page, filed, hpage, hlast, ?_⟩
    exact {
      agrees := ⟨by rw [hbody], hparentId⟩
      renewed := fun _ => hshows
      kept := fun earlier hearlier hagree => absurd (hagrees.2 ⟨earlier, hearlier, hagree⟩) hnew
      title := fun _ _ => hshows.title
      contents := fun _ _ => hshows.contents }

/-- The index of a source directory without an index file or any pages. -/
def bare (title : String) (attachments : List String) : Document :=
  { home with title, attachments }

theorem scanned_bare (rootTitle : String) :
    Scanned { sourceDirectory := "docs", rootTitle } (docs []) [bare rootTitle []] :=
  scanned_docs rfl (.directory (by simp) (by simp) (by simp)) rfl rfl (List.pairwise_singleton _ _)
    (List.nodup_singleton _)

/-- Settings of which only the root title may change. -/
def Retitled (scanner : Scanner) : Prop :=
  ∃ rootTitle, scanner = { sourceDirectory := "docs", rootTitle }

/-- The documents of a directory that holds another one, under a root title. -/
def retitled (rootTitle : String) : List Document :=
  [bare rootTitle [], { guide with parentTitle := rootTitle }]

theorem scanned_retitled :
    Scanned { sourceDirectory := "docs", rootTitle := "B" } nested (retitled "B") :=
  have hguide : (Node.directory []).WellNamed := .directory (by simp) (by simp) (by simp)
  have hcontents : (Node.directory [("guide", .directory [])]).WellNamed :=
    .directory (by decide) (by decide) (by simp [hguide])
  scanned_docs rfl hcontents rfl (by decide +kernel) (by decide) (by decide)

/-- A run that leaves the root page as it is and creates the one below it. -/
theorem run_retitled {page : Storage.Page}
    (hpage : Runner.render {} nested (bare "B" []) = .ok page) :
    (Runner.run {} obliging.filing (retitled "B")
      (afterFirst {} (bare "A" []) page.body (docs []) nested)).1.failed = 0 := by
  have horder : inOrder (retitled "B") = retitled "B" := inOrder_of_pairwise (by decide)
  obtain ⟨below, hbelow⟩ :
      ∃ below, Runner.render {} nested { guide with parentTitle := "B" } = .ok below := ⟨_, rfl⟩
  have htop : Runner.syncDocument {} obliging.filing (bare "B" [])
      (afterFirst {} (bare "A" []) page.body (docs []) nested) = _ :=
    syncDocument_again (by decide) rfl rfl hpage
  rw [Runner.run, horder, retitled, Runner.syncAll, htop]
  simp only [guide] at hbelow ⊢
  have hless : ¬ "guide/index.md" = "index.md" ∧ "guide/index.md" < "index.md" := by decide
  simp [Runner.syncAll, Runner.syncDocument, Publisher.filing, obliging, hbelow, hless,
    Runner.parentId, Runner.publishPage, Ledger.entryFor, Ledger.read, Ledger.entry, Keyed.find?,
    Keyed.set, Entry.isNew, Ledger.commit, entryOf, Document.draft, afterFirst, bare, home,
    firstAccepted, Report.failed, Report.count, Outcome.isFailure]

/-- A root page that is left with the title it had when a page is added below it. -/
theorem last_draft_of_run_retitled :
    ∃ page, Runner.render {} (docs []) (bare "A" []) = .ok page
    ∧ let now := afterFirst {} (bare "A" []) page.body (docs []) nested
      let after := (Runner.run {} obliging.filing (retitled "B") now).2
      obliging.KeepsIds
      ∧ ReflTransGen (Happens obliging Retitled) (opening "state.json" (docs [])) ⟨now, none⟩
      ∧ Retitled { sourceDirectory := "docs", rootTitle := "B" }
      ∧ Scanned { sourceDirectory := "docs", rootTitle := "B" } (obliging.files now.remote.1)
        (retitled "B")
      ∧ (∀ document ∈ retitled "B", document.identity ≠ "") ∧ Runner.dryRun {} = false
      ∧ (Runner.run {} obliging.filing (retitled "B") now).1.failed = 0
      ∧ ∀ document ∈ retitled "B",
        let fs := Runner.filesAt {} obliging.filing (retitled "B") now document
        ∃ page filed, Runner.render {} fs document = .ok page
          ∧ lastFiled document.identity after.remote.2 = some filed
          ∧ LastDraft Retitled { sourceDirectory := "docs", rootTitle := "B" } document fs page.body
            (Runner.pageAbove {} after.ledger document)
            (lastFiled document.identity now.remote.2) filed := by
  obtain ⟨page, hpage⟩ : ∃ page, Runner.render {} (docs []) (bare "A" []) = .ok page := ⟨_, rfl⟩
  refine ⟨page, hpage, ?_⟩
  intro now after
  have hhistory : ReflTransGen (Happens obliging Retitled) (opening "state.json" (docs []))
      ⟨now, none⟩ :=
    happens_first ⟨"A", rfl⟩ (scanned_bare "A") (by decide : home.identity ≠ "") rfl rfl hpage
      nested
  have hnamed : ∀ document ∈ retitled "B", document.identity ≠ "" := by decide
  have hok : (Runner.run {} obliging.filing (retitled "B") now).1.failed = 0 := run_retitled hpage
  exact ⟨obliging_keepsIds, hhistory, ⟨"B", rfl⟩, scanned_retitled, hnamed, rfl, hok,
    last_draft_of_run obliging_keepsIds hhistory ⟨"B", rfl⟩ scanned_retitled hnamed rfl hok⟩

/-! ## Where pages go out of date -/

/-- Whether the last drafts are as they should be after every run without failures, in every
history of syncs that have settings of some kind. -/
def Lasting (publisher : Publisher σ) (settings : Scanner → Prop)
    (current : Document → FileSystem → Filed → Prop) : Prop :=
  ∀ {path : String} {remote : σ} {s : Standing σ} {scanner : Scanner}
    {documents : List Document} {runner : Runner},
    ReflTransGen (Happens publisher settings) (opening path remote) s → settings scanner →
    Scanned scanner (publisher.files s.now.remote.1) documents →
    (∀ document ∈ documents, document.identity ≠ "") → runner.dryRun = false →
    (runner.run publisher.filing documents s.now).1.failed = 0 →
    ∀ document ∈ documents, ∃ filed,
      lastFiled document.identity (runner.run publisher.filing documents s.now).2.remote.2
          = some filed
        ∧ current document (runner.filesAt publisher.filing documents s.now document) filed

/-- A draft of a first sync that a further run leaves as it is has to be as it should be still. -/
theorem not_lasting {settings : Scanner → Prop} {current : Document → FileSystem → Filed → Prop}
    {scanner again : Scanner} {first document : Document} {documents : List Document}
    {fs later : FileSystem} {runner : Runner} {page : Storage.Page} (hsettings : settings scanner)
    (hscanned : Scanned scanner fs [first]) (hnamed : first.identity ≠ "")
    (htop : first.parentIdentity = "") (hreal : runner.dryRun = false)
    (hpage : runner.render fs first = .ok page)
    (hagain : settings again) (hrescanned : Scanned again later documents)
    (hothers : ∀ document ∈ documents, document.identity ≠ "") (hmem : document ∈ documents)
    {report : Report} {after : Progress (FileSystem × List Filed)}
    (hrun : Runner.run {} obliging.filing documents (afterFirst runner first page.body fs later)
      = (report, after))
    (hok : report.failed = 0)
    (hlast : lastFiled document.identity after.remote.2
      = some ⟨firstAccepted runner first page.body, fs⟩)
    (hstale : ¬ current document later ⟨firstAccepted runner first page.body, fs⟩) :
    ¬ Lasting obliging settings current := by
  intro hlasting
  have hhistory := happens_first hsettings hscanned hnamed htop hreal hpage later
  have hnone : (Runner.run {} obliging.filing documents
      (afterFirst runner first page.body fs later)).1.failed = 0 := by rw [hrun, hok]
  obtain ⟨filed, hfiled, hcurrent⟩ :=
    hlasting hhistory hagain hrescanned hothers rfl hnone document hmem
  rw [filesAt_of_steady obliging_steady] at hcurrent
  rw [hrun, hlast] at hfiled
  cases hfiled
  exact hstale hcurrent

/-- The index is left as it was published, with another title or other files now. -/
theorem not_lasting_bare {settings : Scanner → Prop}
    {current : Document → FileSystem → Filed → Prop} {scanner again : Scanner}
    {fs later : FileSystem} {title newTitle : String} {attachments newAttachments : List String}
    (hsettings : settings scanner) (hscanned : Scanned scanner fs [bare title attachments])
    (hagain : settings again) (hrescanned : Scanned again later [bare newTitle newAttachments])
    (hstale : ∀ body, ¬ current (bare newTitle newAttachments) later
      ⟨firstAccepted {} (bare title attachments) body, fs⟩) :
    ¬ Lasting obliging settings current := by
  have hnamed : home.identity ≠ "" := by decide
  obtain ⟨page, hpage⟩ : ∃ page, Runner.render {} fs (bare title attachments) = .ok page :=
    ⟨_, rfl⟩
  have hturn : Runner.syncDocument {} obliging.filing (bare newTitle newAttachments)
      (afterFirst {} (bare title attachments) page.body fs later) = _ :=
    syncDocument_again hnamed rfl rfl hpage
  have horder : inOrder [bare newTitle newAttachments] = [bare newTitle newAttachments] :=
    inOrder_of_pairwise (List.pairwise_singleton _ _)
  have hrun : Runner.run {} obliging.filing [bare newTitle newAttachments]
      (afterFirst {} (bare title attachments) page.body fs later)
      = (⟨[⟨home.identity, newTitle, .unchanged⟩], []⟩,
        afterFirst {} (bare title attachments) page.body fs later) := by
    rw [Runner.run, horder, Runner.syncAll, hturn]
    rfl
  exact not_lasting hsettings hscanned hnamed rfl rfl hpage hagain hrescanned
    (fun _ hmem => List.mem_singleton.1 hmem ▸ hnamed) List.mem_cons_self hrun rfl rfl (hstale _)

/-- A source directory with nothing but a picture in it. -/
def pictured (content : ByteArray) : FileSystem := docs [("logo.png", .file content)]

theorem read_pictured (content : ByteArray) :
    (pictured content).read "docs/logo.png" = .ok content := by
  have hnode : (pictured content).node "docs/logo.png" = .ok (.file content) :=
    Files.node_of_names ["docs", "logo.png"] ⟨by decide, by decide⟩ (by decide) rfl (by decide)
      rfl (by simp)
  simp only [FileSystem.read, hnode]

theorem scanned_pictured (content : ByteArray) :
    Scanned { sourceDirectory := "docs" } (pictured content) [bare "docs" ["docs/logo.png"]] := by
  have hproper : ProperName "logo.png" := by decide
  have hwellNamed : (Node.directory [("logo.png", .file content)]).WellNamed :=
    .directory (List.nodup_singleton _) (by simp [hproper]) (by simp [Node.WellNamed.file])
  refine scanned_docs rfl hwellNamed rfl ?_ (List.pairwise_singleton _ _) (List.nodup_singleton _)
  have hhidden : isHidden "logo.png" = false := by decide
  have hmarkdown : isMarkdown "logo.png" = false := by decide +kernel
  have hname : "logo.png" ≠ defaultIndexName := by decide
  have htitle : Files.fileName "docs" = some "docs" := by decide +kernel
  have hfile : Files.join "docs" "logo.png" = "docs/logo.png" := by decide +kernel
  simp [Scanner.documentsOf, Scanner.childDocuments, Scanner.indexDocument, Scanner.documentsBelow,
    Scanner.hasIndex, Scanner.attachments, Scanner.rootFolder, Scanner.indexIdentity, identityIn,
    Keyed.sorted, Keyed.insert, hhidden, hmarkdown, hname, htitle, hfile, bare, home]
  rfl

/-- A source directory whose index is a file of another name, or has none. -/
def renamed : FileSystem := docs [("a.md", .file .empty), ("logo.png", .file .empty)]

/-- The file as the index. -/
def former : Document :=
  { home with source := .file "docs/a.md", identity := "a.md", attachments := ["docs/logo.png"] }

/-- The file as a page beside the index. -/
def latter : Document where
  source := .file "docs/a.md"
  identity := "a.md"
  title := "a"
  isIndex := false
  parentTitle := "docs"
  parentIdentity := "index.md"
  level := 1
  attachments := []

theorem wellNamed_renamed :
    (Node.directory [("a.md", .file .empty), ("logo.png", .file .empty)]).WellNamed :=
  .directory (by decide) (by decide) (by simp [Node.WellNamed.file])

theorem scanned_former :
    Scanned { sourceDirectory := "docs", indexName := "a.md" } renamed [former] :=
  scanned_docs rfl wellNamed_renamed rfl (by decide +kernel) (by decide) (by decide)

theorem scanned_latter :
    Scanned { sourceDirectory := "docs" } renamed [bare "docs" ["docs/logo.png"], latter] where
  wellNamed := scanned_former.wellNamed
  scanned := by
    have hfound : Scanner.documentsOf { sourceDirectory := "docs" }
        (Scanner.rootFolder { sourceDirectory := "docs" })
        (.directory [("a.md", .file .empty), ("logo.png", .file .empty)])
        = [latter, bare "docs" ["docs/logo.png"]] := by decide +kernel
    have horder : inOrder [latter, bare "docs" ["docs/logo.png"]]
        = [bare "docs" ["docs/logo.png"], latter] :=
      inOrder_of_perm (by decide) (by decide) (by decide)
    rw [renamed, scan_docs rfl rfl, hfound, horder]
  distinct := by decide

theorem render_renamed {runner : Runner} {document : Document}
    (h : document.source = .file "docs/a.md") :
    runner.render renamed document
      = .ok (Storage.renderMarkdown runner.style document.context "") := by
  have hnode : renamed.node "docs/a.md" = .ok (.file .empty) :=
    Files.node_of_names ["docs", "a.md"] ⟨by decide, by decide⟩ (by decide) rfl (by decide) rfl
      (by simp)
  have hread : renamed.readText "docs/a.md" = .ok "" := by
    simp only [FileSystem.readText, FileSystem.read, hnode, bind, Except.bind]
    decide +kernel
  simp only [Runner.render, h, Storage.renderFile, hread]

/-- The page of the file is left as the index it was, below a page of the same id. -/
theorem run_renamed {page : Storage.Page} (hpage : Runner.render {} renamed latter = .ok page) :
    let run := Runner.run {} obliging.filing [bare "docs" ["docs/logo.png"], latter]
      (afterFirst { rootPageId := "id-index.md" } former page.body renamed renamed)
    run.1.failed = 0 ∧ lastFiled "a.md" run.2.remote.2
      = some ⟨firstAccepted { rootPageId := "id-index.md" } former page.body, renamed⟩ := by
  have horder : inOrder [bare "docs" ["docs/logo.png"], latter]
      = [bare "docs" ["docs/logo.png"], latter] := inOrder_of_pairwise (by decide)
  have hless : ¬ "index.md" < "a.md" := by decide
  obtain ⟨index, hindex⟩ :
      ∃ index, Runner.render {} renamed (bare "docs" ["docs/logo.png"]) = .ok index := ⟨_, rfl⟩
  simp only [Runner.run, horder]
  simp only [bare, home, latter] at hindex hpage ⊢
  simp [Runner.syncAll, Runner.syncDocument, Publisher.filing, obliging, hindex, hpage, hless,
    Runner.parentId, Runner.publishPage, Ledger.entryFor, Ledger.read, Ledger.entry, Keyed.find?,
    Keyed.set, Entry.isNew, Ledger.commit, entryOf, Document.draft, former, home, afterFirst,
    firstAccepted, Report.failed, Report.count, Outcome.isFailure, lastFiled, Filed.draft]

/-- Settings of which only the index name may change. -/
def Reindexed (scanner : Scanner) : Prop :=
  ∃ indexName, scanner = { sourceDirectory := "docs", indexName }

theorem not_lasting_renamed {current : Document → FileSystem → Filed → Prop}
    (hstale : ∀ body, ¬ current latter renamed
      ⟨firstAccepted { rootPageId := "id-index.md" } former body, renamed⟩) :
    ¬ Lasting obliging Reindexed current := by
  have hbody : (Storage.renderMarkdown {} latter.context "").body
      = (Storage.renderMarkdown {} former.context "").body := by decide +kernel
  have hlatter : Runner.render {} renamed latter = _ := render_renamed rfl
  obtain ⟨hok, hlast⟩ := run_renamed hlatter
  rw [hbody] at hok hlast
  have hformer : Runner.render { rootPageId := "id-index.md" } renamed former = _ :=
    render_renamed rfl
  exact not_lasting ⟨"a.md", rfl⟩ scanned_former (by decide) rfl rfl hformer ⟨"index.md", rfl⟩
    scanned_latter (by decide) (List.mem_cons_of_mem _ List.mem_cons_self) rfl hok hlast (hstale _)

/-- After a run without failures a page may have the root title or the files there were before.
Once the index name has changed, even a page below the top may have the title and the files of
the index that it was. -/
theorem not_current :
    obliging.KeepsIds
    ∧ ¬ Lasting obliging Retitled (fun document _ filed => filed.draft.title = document.title)
    ∧ ¬ Lasting obliging (· = { sourceDirectory := "docs" })
      (fun document _ filed => filed.draft.attachments = document.attachments)
    ∧ ¬ Lasting obliging (· = { sourceDirectory := "docs" })
      (fun document files filed => filed.draft.attachments = document.attachments →
        filed.contents = document.contents files)
    ∧ ¬ Lasting obliging Reindexed
      (fun document _ filed => document.level ≠ 0 → filed.draft.title = document.title)
    ∧ ¬ Lasting obliging Reindexed
      (fun document _ filed => document.isIndex = false →
        filed.draft.attachments = document.attachments) := by
  refine ⟨obliging_keepsIds, ?title, ?attachments, ?contents, ?pageTitle, ?pageAttachments⟩
  case title =>
    exact not_lasting_bare ⟨"A", rfl⟩ (scanned_bare "A") ⟨"B", rfl⟩ (scanned_bare "B")
      fun _ htitle => absurd htitle (by decide : "A" ≠ "B")
  case attachments =>
    have hscanned : Scanned { sourceDirectory := "docs" } (docs []) [bare "docs" []] :=
      scanned_bare "docs"
    exact not_lasting_bare rfl hscanned rfl (scanned_pictured .empty)
      fun _ hattachments => by cases hattachments
  case contents =>
    refine not_lasting_bare rfl (scanned_pictured .empty) rfl (scanned_pictured ⟨#[0]⟩)
      fun body hcurrent => ?_
    have hcontents := hcurrent rfl
    simp only [Filed.contents, Document.contents, Filed.draft, firstAccepted, Document.draft, bare,
      List.map_cons, read_pictured] at hcontents
    cases hcontents
  case pageTitle =>
    exact not_lasting_renamed fun _ hcurrent =>
      absurd (hcurrent (by decide)) (by decide : "docs" ≠ "a")
  case pageAttachments => exact not_lasting_renamed fun _ hcurrent => by cases hcurrent rfl

end WikiPress.Sync
