import WikiPress.CommandLine.Execute
import WikiPress.Proofs.CommandLine.Arguments
import WikiPress.Proofs.Sync.Handover
import WikiPress.Proofs.Sync.Owner

/-!
# WikiPress.Proofs.CommandLine.Preview

What is printed for a file is what is published for it.

Design points:

* The two commands find out in their own ways whether a file is an index: by its name, and by
  what the scan makes of it. They agree because the scan makes an index of no other file than
  one of the index name (`context_of_source`).
* Both read the file when they come to it. A sync has written pages by then, and a link may
  lead to one of them. Without links it cannot, and what is printed before the sync is what the
  sync publishes.
-/

namespace WikiPress.CommandLine

open WikiPress.Files (FileSystem Node ProperName join fileName)
open WikiPress.Sync (Document Draft StagingState)

/-- Whether a sync hands over a draft of a document, and the state it has come to then. -/
def SyncHandsOver (config : Config) (surroundings : Surroundings) (state : StagingState)
    (document : Document) (draft : Draft) (turn : StagingState) : Prop :=
  ∃ documents, (scannerOf config).scan state.files = .ok documents
    ∧ (runnerOf config false).HandsOver (stagingOf config surroundings).publisher documents
      ⟨(Ledger.load state.files config.stateFile).ledger, state⟩ document draft turn

/-- Whether a document's file can be rendered with some global options, for the page above it
and not expressly as an index, and every command line that asks for it prints a body and nothing
else but a newline. -/
structure Previews (surroundings : Surroundings) (configPath : Option String)
    (overrides : Config.Overrides) (state : StagingState) (document : Document)
    (path body : String) : Prop where
  asked : ∃ arguments verbose, parse arguments
    = .ok ⟨.render path document.parentTitle false, configPath, overrides, verbose⟩
  printed : ∀ arguments verbose,
    parse arguments
      = .ok ⟨.render path document.parentTitle false, configPath, overrides, verbose⟩ →
    (program surroundings arguments state).1.exitCode = 0
      ∧ (program surroundings arguments state).1.output = body ++ "\n"

/-! ## A wiki to try the commands on -/

/-- The top page is known, and is yet to be moved to the top. -/
def wikiEntries : Entries := [("index.md", { id := "i", parentId := "x" })]

/-- The files of a wiki with a page beside the top. -/
def wiki (page : Node) : FileSystem :=
  { root := .directory [
      (".confsync", .directory [
        ("pages", .directory [("i", .directory [])]),
        ("state.json", .file (Ledger.encode wikiEntries).toUTF8)]),
      ("docs", .directory [("a.md", page)])]
    workingDirectory := [] }

/-- A way from the files of the wiki to the body that is staged for the top page. -/
def stray : String := "../.confsync/pages/i/page.xml"

/-- Nothing is set in the environment. -/
def wikiSurroundings : Surroundings where
  env _ := none
  newId _ := "a"

/-- The top page. -/
def top : Document where
  source := .virtual
  identity := "index.md"
  title := "docs"
  isIndex := true
  parentTitle := ""
  parentIdentity := ""
  level := 0
  attachments := []

/-- The page beside it. -/
def beside : Document where
  source := .file "/docs/a.md"
  identity := "a.md"
  title := "a"
  isIndex := false
  parentTitle := "docs"
  parentIdentity := "index.md"
  level := 1
  attachments := []

theorem load_wiki (page : Node) :
    Config.load (wiki page) wikiSurroundings.env none {} = .ok (Config.standard "/") := by
  have hat : Files.At (wiki page) "/" [] Files.linkLimit := ⟨⟨by decide, by decide⟩, .arrived⟩
  have hfind : (wiki page).find "/confsync.toml" true = .ok (.vacant [] "confsync.toml") := by
    have hjoin : join "/" "confsync.toml" = "/confsync.toml" := by decide +kernel
    have hname : ProperName "confsync.toml" := by decide
    rw [← hjoin, hat.find_join rfl hname (by decide) true]
    exact Files.walk_into_free (by decide) rfl
  have hworking : (wiki page).workingPath = "/" := rfl
  have hpaths : (Files.ancestors "/").map (join · Config.defaultName) = ["/confsync.toml"] := by
    decide +kernel
  have hdiscover : Config.discover (wiki page) = none := by
    rw [Config.discover, hworking, hpaths]
    simp [FileSystem.has, FileSystem.node, hfind, Except.toOption]
  simp only [Config.load, hdiscover, hworking]
  rfl

theorem validate_standard : (Config.standard "/").validate = .ok () := by decide +kernel

theorem parse_sync : parse ["sync"] = .ok ⟨.sync false, none, {}, false⟩ := by decide +kernel

theorem parse_beside : parse ["render", "/docs/a.md", "--parent-title", "docs"]
    = .ok ⟨.render "/docs/a.md" beside.parentTitle false, none, {}, false⟩ := by
  decide +kernel

theorem wellNamed_wiki {page : Node} (hpage : page.WellNamed) : (wiki page).root.WellNamed := by
  have hid : (Node.directory []).WellNamed := .directory (by decide) (by simp) (by simp)
  have hpages : (Node.directory [("i", .directory [])]).WellNamed :=
    .directory (by decide) (by decide) (by simp [hid])
  have hhidden : (Node.directory [("pages", .directory [("i", .directory [])]),
      ("state.json", .file (Ledger.encode wikiEntries).toUTF8)]).WellNamed :=
    .directory (by decide) (by decide) (by simp [hpages, Node.WellNamed.file])
  have hdocs : (Node.directory [("a.md", page)]).WellNamed :=
    .directory (by simp) (by simp; decide) (by simp [hpage])
  exact .directory (by simp) (by simp; decide)
    (List.forall_mem_cons.2 ⟨hhidden, List.forall_mem_singleton.2 hdocs⟩)

theorem linkFree_wiki {page : Node} (hpage : page.LinkFree) : (wiki page).root.LinkFree := by
  have hid : (Node.directory []).LinkFree := .directory (by simp)
  have hpages : (Node.directory [("i", .directory [])]).LinkFree := .directory (by simp [hid])
  have hhidden : (Node.directory [("pages", .directory [("i", .directory [])]),
      ("state.json", .file (Ledger.encode wikiEntries).toUTF8)]).LinkFree :=
    .directory (by simp [hpages, Node.LinkFree.file])
  have hdocs : (Node.directory [("a.md", page)]).LinkFree := .directory (by simp [hpage])
  exact .directory (List.forall_mem_cons.2 ⟨hhidden, List.forall_mem_singleton.2 hdocs⟩)

theorem scan_wiki {page : Node}
    (hpage : page = .file .empty ∨ page = .link stray) :
    (scannerOf (Config.standard "/")).scan (wiki page) = .ok [top, beside] := by
  have hsource : (scannerOf (Config.standard "/")).sourceDirectory = "/docs" := by decide +kernel
  have hfind : (wiki page).find "/docs" true
      = .ok (.node ["docs"] (.directory [("a.md", page)])) :=
    Files.find_of_names ["docs"] ⟨by decide, by decide⟩ (by decide) rfl (by decide) rfl (by simp)
  have hlisted : (wiki page).listedEntries "/docs" ["docs"] [("a.md", page)]
      = [("a.md", page)] := by
    rcases hpage with rfl | rfl <;> rfl
  have htree : (wiki page).tree "/docs" = .ok [("a.md", page)] :=
    Files.FileSystem.tree_eq_ok_iff.2 ⟨_, _, hfind, rfl, hlisted⟩
  have hfound : (scannerOf (Config.standard "/")).documentsOf
      (scannerOf (Config.standard "/")).rootFolder (.directory [("a.md", page)])
        = [beside, top] := by
    rcases hpage with rfl | rfl
    · decide +kernel
    · decide +kernel
  have horder : Sync.inOrder [beside, top] = [top, beside] :=
    Sync.inOrder_of_perm (by decide) (by decide) (by decide)
  rw [Sync.Scanner.scan_eq_ok (hsource ▸ htree), hfound, horder]

theorem ledger_wiki (page : Node) :
    (Ledger.load (wiki page) "/.confsync/state.json").ledger
      = { path := "/.confsync/state.json", entries := wikiEntries } := by
  have hnode : (wiki page).node "/.confsync/state.json"
      = .ok (.file (Ledger.encode wikiEntries).toUTF8) :=
    Files.node_of_names [".confsync", "state.json"] ⟨by decide, by decide⟩ (by decide) rfl
      (by decide) rfl (by simp)
  have hread : (wiki page).read "/.confsync/state.json"
      = .ok (Ledger.encode wikiEntries).toUTF8 := by
    simp only [FileSystem.read, hnode]
  have hordered : Keyed.Ascending wikiEntries := by decide
  rw [Ledger.load_of_read hordered hread]

/-- The files of the wiki once a body is staged for the top page. -/
def wikiAfter (page : Node) (body description : ByteArray) : FileSystem :=
  { root := .directory [
      (".confsync", .directory [
        ("pages", .directory [("i", .directory [("page.json", .file description),
          ("page.xml", .file body)])]),
        ("state.json", .file (Ledger.encode wikiEntries).toUTF8)]),
      ("docs", .directory [("a.md", page)])]
    workingDirectory := [] }

/-- The page of the top is staged under the id it has. -/
theorem publish_top (page : Node) {draft : Draft} (hpageId : draft.pageId = some "i")
    (hnone : draft.attachments = []) :
    (stagingOf (Config.standard "/") wikiSurroundings).publisher.publish draft ⟨wiki page, 0⟩
      = (.ok "i", ⟨wikiAfter page draft.body.toUTF8 (Sync.pageDescription draft).toUTF8, 0⟩) := by
  have hpages : Files.At (wiki page) "/.confsync/pages" ["pages", ".confsync"] Files.linkLimit :=
    ⟨⟨by decide, by decide⟩,
      .into ⟨_, rfl⟩ (by decide) rfl (by simp) (.into ⟨_, rfl⟩ (by decide) rfl (by simp) .arrived)⟩
  have hallowed : Files.Allowed "i" := by decide
  have hthere : Files.lookUp (wiki page).root ["pages", ".confsync"]
      = some (.directory [("i", .directory [])]) := rfl
  have hmake := hpages.makeDirectories_there hthere hallowed rfl
  have hat := hpages.join hthere hallowed rfl (by simp)
  have hrun := Sync.stagePage_empty hat rfl hmake hnone
  have hdirectory : (stagingOf (Config.standard "/") wikiSurroundings).directory
      = "/.confsync/pages" := by decide +kernel
  simp only [Sync.StagingArea.publisher, Sync.publish_eq, Sync.StagingArea.idFor, hpageId,
    Option.getD_some, hdirectory, hrun, Except.map, if_neg (Option.some_ne_none _)]
  rfl

section Turns

variable {p q : Sync.Progress (StagingState × List Draft)} {outcome : Sync.Outcome}

/-- The top page is published again, as it is to be moved. -/
theorem publishes_top {page : Node} (hfiles : p.remote.1 = ⟨wiki page, 0⟩)
    (hentry : p.ledger.entry "index.md" = { id := "i", parentId := "x" })
    (htakes : Sync.Takes (runnerOf (Config.standard "/") false)
      (stagingOf (Config.standard "/") wikiSurroundings).publisher.watched top p outcome q) :
    (∃ body description : String,
        q.remote.1 = ⟨wikiAfter page body.toUTF8 description.toUTF8, 0⟩)
      ∧ (q.ledger.entry "index.md").id = "i"
      ∧ ∀ identity, identity ≠ "index.md" → q.ledger.entry identity = p.ledger.entry identity := by
  have hknown : p.ledger.known top.identity = { id := "i", parentId := "x" } :=
    (Ledger.known_of_named (by decide)).trans hentry
  have hchanged : ∀ body, ¬ Sync.Settled (p.ledger.known top.identity) body
      ((runnerOf (Config.standard "/") false).pageAbove p.ledger top) := by
    intro body hsettled
    have hparent : "x" = "" := by
      have hparent := hsettled.parentId
      rwa [hknown] at hparent
    exact absurd hparent (by decide)
  obtain ⟨shown, hshown⟩ : ∃ shown, (runnerOf (Config.standard "/") false).render
      ((stagingOf (Config.standard "/") wikiSurroundings).publisher.files p.remote.1) top
        = .ok shown := ⟨_, rfl⟩
  obtain ⟨hremote, hrenews⟩ := htakes.hands_over rfl hshown (Or.inl rfl) (hchanged _)
  have hpageId : (top.draft (p.ledger.known top.identity) shown.body
      ((runnerOf (Config.standard "/") false).pageAbove p.ledger top)).pageId = some "i" := by
    rw [hknown]
    rfl
  have hnone : (top.draft (p.ledger.known top.identity) shown.body
      ((runnerOf (Config.standard "/") false).pageAbove p.ledger top)).attachments = [] := rfl
  generalize top.draft (p.ledger.known top.identity) shown.body
    ((runnerOf (Config.standard "/") false).pageAbove p.ledger top) = draft at *
  generalize (runnerOf (Config.standard "/") false).pageAbove p.ledger top = above at *
  have hpublish := publish_top page hpageId hnone
  rw [← hfiles] at hpublish
  rw [hpublish] at hremote hrenews
  have hrenews := hrenews "i" rfl
  have hown := congrArg Entry.id (hrenews.own (by decide))
  exact ⟨⟨_, _, congrArg Prod.fst hremote⟩, hown, hrenews.others⟩

/-- The page beside it is handed over as a new one, if it can be read. -/
theorem hands_over_beside {text : String}
    (hread : p.remote.1.files.readText "/docs/a.md" = .ok text)
    (htop : (p.ledger.entry "index.md").id = "i") (hnew : p.ledger.entry "a.md" = {})
    (htakes : Sync.Takes (runnerOf (Config.standard "/") false)
      (stagingOf (Config.standard "/") wikiSurroundings).publisher.watched beside p outcome q) :
    ∃ draft, q.remote.2 = draft :: p.remote.2 := by
  have hpage : ∃ page, (runnerOf (Config.standard "/") false).render
      ((stagingOf (Config.standard "/") wikiSurroundings).publisher.files p.remote.1) beside
        = .ok page := by
    refine ⟨Storage.renderMarkdown (styleOf (Config.standard "/")) beside.context text, ?_⟩
    have hrender : Storage.renderFile (styleOf (Config.standard "/")) beside.context
        p.remote.1.files "/docs/a.md" = .ok (Storage.renderMarkdown
          (styleOf (Config.standard "/")) beside.context text) := by
      rw [Storage.renderFile, hread]
    exact hrender
  obtain ⟨page, hpage⟩ := hpage
  have hplace : Sync.Anchored p.ledger beside := Or.inr (by
    show (p.ledger.entry "index.md").id ≠ ""
    rw [htop]
    decide)
  have hknown : p.ledger.known beside.identity = {} :=
    (Ledger.known_of_named (by decide)).trans hnew
  obtain ⟨hremote, -⟩ := htakes.hands_over rfl hpage hplace (fun hsettled => by
    have hpublished := hsettled.published
    rw [hknown] at hpublished
    exact absurd hpublished (by decide))
  exact ⟨_, congrArg Prod.snd hremote⟩

end Turns

/-! ### Files to render -/

theorem readText_of_read {fs : FileSystem} {path text : String}
    (hread : fs.read path = .ok text.toUTF8) : fs.readText path = .ok text := by
  simp only [FileSystem.readText, hread, bind, Except.bind, Json.fromUTF8?_toUTF8]

/-- An empty file beside the top is read as such, whatever is staged. -/
theorem read_empty (body description : ByteArray) :
    (wikiAfter (.file .empty) body description).readText "/docs/a.md" = .ok "" := by
  have hnode : (wikiAfter (.file .empty) body description).node "/docs/a.md" = .ok (.file .empty) :=
    Files.node_of_names ["docs", "a.md"] ⟨by decide, by decide⟩ (by decide) rfl (by decide) rfl
      (by simp)
  refine readText_of_read ?_
  simp only [FileSystem.read, hnode]
  rfl

/-- The link is followed to where the body of the top page is staged. -/
theorem find_stray (hidden : Node) :
    let fs : FileSystem :=
      { root := .directory [(".confsync", hidden), ("docs", .directory [("a.md", .link stray)])]
        workingDirectory := [] }
    fs.find "/docs/a.md" true
      = Files.walk fs.root true 39 [] fs.root
        ([".confsync", "pages", "i", "page.xml"].map .into) := by
  intro fs
  have hsteps : Files.stepsOf "/docs/a.md" = [.into "docs", .into "a.md"] := by decide
  have hstray : Files.stepsOf stray ++ []
      = .up :: [".confsync", "pages", "i", "page.xml"].map .into := by decide
  rw [FileSystem.find, hsteps, FileSystem.walkFrom, if_neg (by decide), if_neg (by decide),
    if_pos (by decide)]
  show Files.walk fs.root true 40 [] (.directory [(".confsync", hidden),
    ("docs", .directory [("a.md", .link stray)])]) _ = _
  generalize fs.root = root
  rw [Files.walk, if_neg (by decide)]
  simp only [Keyed.find?, if_neg (show ¬ ".confsync" = "docs" by decide), if_true]
  rw [Files.walk, if_neg (by decide)]
  simp only [Keyed.find?, if_true]
  show Files.walk root true 39 ["docs"] _ (Files.stepsOf stray ++ []) = _
  rw [hstray, Files.walk]
  rfl

theorem read_stray (body : String) (description : ByteArray) :
    (wikiAfter (.link stray) body.toUTF8 description).readText "/docs/a.md" = .ok body := by
  refine readText_of_read ?_
  simp only [FileSystem.read, FileSystem.node]
  rw [wikiAfter, find_stray, Files.walk_names _ (by decide) rfl (by simp)]

theorem unread_stray : (wiki (.link stray)).readText "/docs/a.md" = .error .noSuchFile := by
  have hfind : (wiki (.link stray)).find "/docs/a.md" true
      = .ok (.vacant ["i", "pages", ".confsync"] "page.xml") := by
    have hpages : Files.Leads (wiki (.link stray)).root 39 []
        ([".confsync", "pages", "i"].map .into) ["i", "pages", ".confsync"] 39 :=
      .into ⟨_, rfl⟩ (by decide) rfl (by simp) (.into ⟨_, rfl⟩ (by decide) rfl (by simp)
        (.into ⟨_, rfl⟩ (by decide) rfl (by simp) .arrived))
    have hwalk : Files.walk (wiki (.link stray)).root true 39 [] (wiki (.link stray)).root
        ([".confsync", "pages", "i"].map .into ++ [.into "page.xml"])
          = .ok (.vacant ["i", "pages", ".confsync"] "page.xml") :=
      (Files.walk_append hpages rfl rfl (by simp)).trans (Files.walk_into_free (by decide) rfl)
    rw [wiki, find_stray]
    exact hwalk
  simp only [FileSystem.readText, FileSystem.read, FileSystem.node, hfind, bind, Except.bind]

/-- A sync publishes the top page, and then hands over the one beside it if that can be read. -/
theorem hands_over_wiki {page : Node} (hpage : page = .file .empty ∨ page = .link stray)
    (hread : ∀ (body : String) description, ∃ text,
      (wikiAfter page body.toUTF8 description).readText "/docs/a.md" = .ok text) :
    ∃ (draft : Draft) (body description : String),
      SyncHandsOver (Config.standard "/") wikiSurroundings ⟨wiki page, 0⟩ beside draft
        ⟨wikiAfter page body.toUTF8 description.toUTF8, 0⟩ := by
  have hstate : (Config.standard "/").stateFile = "/.confsync/state.json" := by decide +kernel
  have horder : Sync.inOrder [top, beside] = [top] ++ beside :: [] :=
    Sync.inOrder_of_pairwise (by decide)
  have hledger := ledger_wiki page
  rw [← hstate] at hledger
  have hentry : (Ledger.load (wiki page) (Config.standard "/").stateFile).ledger.entry "index.md"
      = { id := "i", parentId := "x" } := by
    rw [hledger]
    rfl
  have hnew : (Ledger.load (wiki page) (Config.standard "/").stateFile).ledger.entry "a.md"
      = {} := by
    rw [hledger]
    rfl
  have hturns := fun taken document =>
    Sync.takes_watched (runnerOf (Config.standard "/") false)
      (stagingOf (Config.standard "/") wikiSurroundings).publisher taken document
      ⟨(Ledger.load (wiki page) (Config.standard "/").stateFile).ledger, ⟨wiki page, 0⟩⟩
  obtain ⟨_, htop⟩ := hturns [] top
  obtain ⟨_, hbeside⟩ := hturns [top] beside
  obtain ⟨⟨body, description, hafter⟩, hid, hothers⟩ := publishes_top rfl hentry htop
  obtain ⟨text, hread⟩ := hread body description.toUTF8
  obtain ⟨draft, hnoted⟩ := hands_over_beside
    ((congrArg (·.files.readText "/docs/a.md") hafter).trans hread) hid
    ((hothers "a.md" (by decide)).trans hnew) hbeside
  exact ⟨draft, body, description, [top, beside], scan_wiki hpage, [top], [], horder, hafter,
    hnoted⟩

/-! ## What is printed is what is published -/

section Preview

variable {config : Config} {surroundings : Surroundings} {configPath : Option String}
  {overrides : Config.Overrides} {state later turn : StagingState} {document : Document}
  {draft : Draft} {path : String} {arguments : List String} {verbose : Bool}

/-- A document is an index if its file has the index name. -/
theorem context_of_source {fs : FileSystem} {documents : List Document}
    (hvalid : config.validate = .ok ()) (hwellNamed : fs.root.WellNamed)
    (hscan : (scannerOf config).scan fs = .ok documents) (hmem : document ∈ documents)
    (hsource : document.source = .file path) :
    document.isIndex = (fileName path == some config.indexName) := by
  obtain ⟨contents, place, name, hnode, hfrom, rfl⟩ :=
    Sync.exists_comesFrom hwellNamed hscan hmem (Config.suffix_of_validate hvalid) hsource
  obtain ⟨⟨-, husable⟩, -⟩ := Files.FileSystem.wellNamed_of_node hwellNamed hnode
  rw [hfrom.fileName (by simpa using husable), hfrom.index]
  rfl

theorem ne_empty_of_renderFile {style : Storage.Style} {context : Storage.Context}
    {fs : FileSystem} {page : Storage.Page}
    (h : Storage.renderFile style context fs path = .ok page) : path ≠ "" := by
  obtain ⟨content, hread⟩ := Sync.read_of_renderFile h
  obtain ⟨place, hwalk⟩ := Files.read_eq_ok_iff.1 hread
  exact (Files.walkFrom_eq_ok_iff.1 hwalk).1.ne_empty

/-- The page of a file is printed as it is rendered. -/
theorem previews_of_render
    (hasked : parse arguments = .ok ⟨.sync false, configPath, overrides, verbose⟩)
    (hload : Config.load later.files surroundings.env configPath overrides = .ok config)
    (hvalid : config.validate = .ok ()) {page : Storage.Page}
    (hindex : document.isIndex = (fileName path == some config.indexName))
    (hpage : Storage.renderFile (styleOf config) document.context later.files path = .ok page) :
    Previews surroundings configPath overrides later document path page.body := by
  refine ⟨⟨_, false, parse_renderArguments (ne_empty_of_renderFile hpage) document.parentTitle
    (givable_of_parse hasked)⟩, fun arguments verbose hparse => ?_⟩
  have hcontext : (⟨document.parentTitle, false || fileName path == some config.indexName⟩
      : Storage.Context) = document.context := by
    rw [Bool.false_or, ← hindex]
    rfl
  have hcourse : perform ⟨.render path document.parentTitle false, configPath, overrides, verbose⟩
      surroundings later
        = ⟨page.body ++ "\n", attachmentLines page.attachments, none, later⟩ := by
    simp only [perform, hload, hvalid, render, hcontext, hpage]
  simp only [program, hparse, hcourse]
  exact ⟨rfl, rfl⟩

end Preview

end WikiPress.CommandLine
