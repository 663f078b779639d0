import WikiPress.Proofs.Sync.History
import WikiPress.Proofs.Sync.PageTree

/-!
# WikiPress.Proofs.Sync.Idempotence

A second run has nothing to do.

Design points:

* `Runner.UpToDate` is what makes a document unchanged. A turn that does not fail leaves its
  document up to date as of the end of the run, whatever it did (`Turn.upToDate`).
* A run over documents that are up to date asks for entries that are there. It gives back
  the very state it was given (`syncAll_upToDate`), so it is of no account which publisher
  it is.
* A second run may start with the ledger of the first, or with what is loaded after that
  ledger was saved (`Ledger.Resumes`).
-/

namespace WikiPress

open WikiPress.Files (FileSystem)

/-- A ledger to go on with after a run: the one at hand, or the same one saved and loaded
again from files in which `found` says its path is good. -/
inductive Ledger.Resumes (found : FileSystem → String → Prop) (ledger : Ledger) : Ledger → Prop
  /-- The ledger is still at hand. -/
  | kept : Resumes found ledger ledger
  /-- The ledger was saved. -/
  | loaded {fs saved : FileSystem} :
      ledger.persist fs = (.ok (), saved) → found saved ledger.path →
      Resumes found ledger (Ledger.load saved ledger.path).ledger

/-- The ledger to go on with has the same path and the same entries. -/
theorem Ledger.Resumes.eq {ledger resumed : Ledger} (h : ledger.Resumes Files.Reaches resumed)
    (hordered : Keyed.Ascending ledger.entries) :
    resumed.path = ledger.path ∧ resumed.entries = ledger.entries := by
  cases h with
  | kept => exact ⟨rfl, rfl⟩
  | loaded hsaved hreaches =>
      rw [Ledger.load_persist hordered hsaved hreaches]
      exact ⟨rfl, rfl⟩

namespace Sync

variable {σ τ : Type} {runner : Runner} {publisher : Publisher σ}

/-! ## Documents that are up to date -/

/-- Whether a document's page is as its entry says, below a page that is there. -/
def Runner.UpToDate (runner : Runner) (fs : FileSystem) (ledger : Ledger) (document : Document) :
    Prop :=
  ∃ page, runner.render fs document = .ok page
    ∧ Settled (ledger.entry document.identity) page.body (runner.pageAbove ledger document)
    ∧ Anchored ledger document

/-- Asking for the page above changes nothing if its entry is there. -/
theorem parentId_of_anchored {document : Document} {ledger : Ledger}
    (hordered : Keyed.Ascending ledger.entries) (hanchored : Anchored ledger document) :
    runner.parentId document ledger = (.ok (runner.pageAbove ledger document), ledger) := by
  unfold Runner.parentId Runner.pageAbove
  by_cases htop : document.parentIdentity = ""
  · simp [htop]
  · have hid : (ledger.entry document.parentIdentity).id ≠ "" := hanchored.resolve_left htop
    have hasked := Ledger.entryFor_of_find? hordered (Ledger.find?_of_entry hid) htop
    simp [hasked, htop, Ledger.read, hid]

/-- A document that is up to date is left alone. -/
theorem syncDocument_upToDate {document : Document} {p : Progress σ}
    (hnamed : document.identity ≠ "") (hordered : Keyed.Ascending p.ledger.entries)
    (h : runner.UpToDate (publisher.files p.remote) p.ledger document) :
    (runner.syncDocument publisher document p).1 = .unchanged
      ∧ (runner.syncDocument publisher document p).2.2 = p := by
  obtain ⟨page, hpage, hsettled, hanchored⟩ := h
  have hid : (p.ledger.entry document.identity).id ≠ "" := by
    simpa [Entry.isNew] using hsettled.published
  have hasked := Ledger.entryFor_of_find? hordered (Ledger.find?_of_entry hid) hnamed
  unfold Runner.syncDocument
  simp only [hpage, parentId_of_anchored hordered hanchored, Runner.publishPage, hasked,
    Ledger.read, hsettled.published, hsettled.hash, hsettled.parentId, Bool.not_false,
    beq_self_eq_true, Bool.and_true, if_true, and_self]

/-- A run over documents that are up to date changes nothing. -/
theorem syncAll_upToDate (publisher : Publisher σ) {documents : List Document} (p : Progress σ)
    (hnamed : ∀ document ∈ documents, document.identity ≠ "")
    (hordered : Keyed.Ascending p.ledger.entries)
    (h : ∀ document ∈ documents,
      runner.UpToDate (publisher.files p.remote) p.ledger document) :
    (runner.syncAll publisher documents p).1.results
        = documents.map (fun d => ⟨d.identity, d.title, .unchanged⟩)
      ∧ (runner.syncAll publisher documents p).2 = p := by
  induction documents with
  | nil => exact ⟨rfl, rfl⟩
  | cons document rest ih =>
      obtain ⟨hfirst, hrest⟩ := List.forall_mem_cons.1 hnamed
      obtain ⟨hnow, hlater⟩ := List.forall_mem_cons.1 h
      obtain ⟨houtcome, hstate⟩ := syncDocument_upToDate hfirst hordered hnow
      obtain ⟨hresults, hend⟩ := ih hrest hlater
      simp only [Runner.syncAll, hstate, houtcome, hresults, hend, List.map_cons, and_self]

/-! ## What a run leaves -/

/-- A document that did not fail is up to date at the end of the run. -/
theorem Turn.upToDate {documents : List Document} {start p q : Progress σ} {document : Document}
    {outcome : Outcome} (h : Turn runner publisher documents start document p outcome q)
    (hnamed : document.identity ≠ "") (hpublisher : publisher.KeepsIds)
    (hreal : runner.dryRun = false) (hok : outcome.isFailure = false) :
    runner.UpToDate (publisher.files p.remote) (runner.run publisher documents start).2.ledger
      document := by
  obtain ⟨page, hpage, hsettled, hanchored⟩ :=
    h.takes.settled_of_not_failure hnamed hpublisher hreal hok
  rw [← h.final, ← h.pageAbove_eq] at hsettled
  exact ⟨page, hpage, hsettled, h.anchored_iff.2 hanchored⟩

/-- No document failed if the report counts none that did. -/
theorem Report.not_failure {report : Report} (h : report.failed = 0) {identity : String}
    {outcome : Outcome} (houtcome : report.outcome? identity = some outcome) :
    outcome.isFailure = false := by
  obtain ⟨result, hfind, rfl⟩ := Option.map_eq_some_iff.1 houtcome
  exact Bool.not_eq_true _ ▸ List.countP_eq_zero.1 h result (List.mem_of_find?_eq_some hfind)

/-- After a run without failures all documents are up to date. -/
theorem upToDate_run {documents : List Document}
    (hnamed : ∀ document ∈ documents, document.identity ≠ "") (h : Hierarchy documents)
    (hpublisher : publisher.KeepsIds) (hreal : runner.dryRun = false) {start : Progress σ}
    {fs : FileSystem} (hfiles : runner.ReadsAs publisher documents start fs)
    (hok : (runner.run publisher documents start).1.failed = 0) :
    ∀ document ∈ documents,
      runner.UpToDate fs (runner.run publisher documents start).2.ledger document := by
  intro document hmem
  obtain ⟨taken, rest, outcome, q, hsplit, hturn⟩ := exists_turn runner publisher h hmem start
  obtain ⟨page, hpage, hsettled⟩ := hturn.upToDate (hnamed document hmem) hpublisher hreal
    (Report.not_failure hok hturn.reported)
  exact ⟨page, (hfiles hsplit).trans hpage, hsettled⟩

/-! ## The second run -/

/-- What a run comes to that has nothing to do after an earlier one, which left `before`. -/
structure NothingToDo (runner : Runner) (publisher : Publisher τ) (documents : List Document)
    (before : Ledger) (start : Progress τ) : Prop where
  /-- Every document is found unchanged. -/
  unchanged : (runner.run publisher documents start).1.results
    = (inOrder documents).map fun d => ⟨d.identity, d.title, .unchanged⟩
  /-- Neither the ledger nor the publisher's state changes. -/
  state : (runner.run publisher documents start).2 = start
  /-- No draft is handed to the publisher. -/
  handed : (runner.run publisher.watched documents
    ⟨start.ledger, (start.remote, [])⟩).2.remote.2 = []
  /-- Every entry is as it was. -/
  entries : (runner.run publisher documents start).2.ledger.entries = before.entries
  /-- Saving the ledger again has the same effect on any files. -/
  persist : ∀ fs, (runner.run publisher documents start).2.ledger.persist fs = before.persist fs
  /-- The state file has the same bytes then. -/
  bytes : ∀ fs saved,
    (runner.run publisher documents start).2.ledger.persist fs = (.ok (), saved) →
    Files.Reaches saved before.path →
    saved.read before.path = .ok (Ledger.encode before.entries).toUTF8

/-- **A second run has nothing to do.** Where a run had no failures, a run over the same
documents and files with the ledger it left, or with that ledger saved and loaded again,
finds every document unchanged, publishes nothing, and saves the same bytes. -/
theorem idempotent_run {publisher : Publisher σ} (hpublisher : publisher.KeepsIds)
    {documents : List Document} (hnamed : ∀ document ∈ documents, document.identity ≠ "")
    (h : Hierarchy documents) {runner : Runner} (hreal : runner.dryRun = false) {start : Progress σ}
    (hordered : Keyed.Ascending start.ledger.entries)
    (hok : (runner.run publisher documents start).1.failed = 0) {ledger : Ledger}
    (hresumes : (runner.run publisher documents start).2.ledger.Resumes Files.Reaches ledger)
    {other : Publisher τ} {remote : τ}
    (hfiles : runner.ReadsAs publisher documents start (other.files remote)) :
    NothingToDo runner other documents (runner.run publisher documents start).2.ledger
      ⟨ledger, remote⟩ := by
  have hdone := upToDate_run hnamed h hpublisher hreal hfiles hok
  have hordered' : Keyed.Ascending (runner.run publisher documents start).2.ledger.entries :=
    ascending_syncAll hordered
  generalize (runner.run publisher documents start).2.ledger = before at *
  obtain ⟨hpath, hentries⟩ := hresumes.eq hordered'
  rw [← hentries] at hordered'
  have hnamed' : ∀ document ∈ inOrder documents, document.identity ≠ "" :=
    fun document hmem => hnamed document (mem_inOrder.1 hmem)
  -- what was up to date with the first ledger is so with the one to go on with
  have hstill : ∀ document ∈ inOrder documents,
      runner.UpToDate (other.files remote) ledger document := by
    intro document hmem
    have hupToDate := hdone document (mem_inOrder.1 hmem)
    simp only [Runner.UpToDate, Runner.pageAbove, Anchored, Ledger.entry, hentries]
      at hupToDate ⊢
    exact hupToDate
  obtain ⟨hresults, hstate⟩ :=
    syncAll_upToDate other ⟨ledger, remote⟩ hnamed' hordered' hstill
  obtain ⟨_, hwatched⟩ :=
    syncAll_upToDate other.watched ⟨ledger, (remote, [])⟩ hnamed' hordered' hstill
  have hend : (runner.run other documents ⟨ledger, remote⟩).2.ledger = ledger :=
    congrArg Progress.ledger hstate
  have hpersist : ∀ fs, ledger.persist fs = before.persist fs := by
    intro fs
    simp only [Ledger.persist, hpath, hentries]
  exact
    { unchanged := hresults
      state := hstate
      handed := congrArg (fun p => p.remote.2) hwatched
      entries := by rw [hend, hentries]
      persist := by rw [hend]; exact hpersist
      bytes := by
        intro fs saved hsaved hreaches
        rw [hend, hpersist] at hsaved
        exact Ledger.read_persist hsaved hreaches }

/-- A run over a section whose ledger is kept behind a link, and a run with the ledger that
is loaded from there. -/
theorem idempotent_run_behind_link :
    let publisher := refusing { root := .directory [], workingDirectory := [] } []
    let documents := [blank "home" "" 0, blank "b" "home" 1]
    let runner : Runner := { rootPageId := "space" }
    let start : Progress Unit := ⟨{ path := "x/y" }, ()⟩
    let first := runner.run publisher documents start
    publisher.KeepsIds ∧ (∀ document ∈ documents, document.identity ≠ "")
    ∧ Hierarchy documents ∧ runner.dryRun = false ∧ Keyed.Ascending start.ledger.entries
    ∧ first.1.failed = 0
    ∧ ∃ ledger, first.2.ledger.Resumes Files.Reaches ledger
      ∧ runner.ReadsAs publisher documents start (publisher.files ())
      ∧ NothingToDo runner publisher documents first.2.ledger ⟨ledger, ()⟩ := by
  intro publisher documents runner start first
  have hpublisher : publisher.KeepsIds := refusing_keepsIds _ _
  have hnamed : ∀ document ∈ documents, document.identity ≠ "" := by decide
  have hdocuments : Hierarchy documents := ⟨by decide, by decide⟩
  have hrun : first = runner.syncAll publisher documents start := by
    have horder : inOrder documents = documents := inOrder_of_pairwise (by decide)
    simp only [first, Runner.run, horder]
  have hok : first.1.failed = 0 := by
    rw [hrun]
    decide +kernel
  have hpath : first.2.ledger.path = "x/y" := by
    rw [hrun]
    decide +kernel
  obtain ⟨content, hsaved⟩ : ∃ content,
      first.2.ledger.persist looped = (.ok (), looped.put [] "y" (.file content)) := by
    refine ⟨_, persist_looped ?_ ?_ ?_ ?_ (by decide) ?_⟩ <;> rw [hpath]
    · decide
    · exact ⟨by decide, by decide⟩
    all_goals decide
  have hreaches : Files.Reaches (looped.put [] "y" (.file content)) first.2.ledger.path := by
    have hleading : Files.leadingSteps "x/y" = [.into "x"] := by decide
    rw [hpath]
    refine ⟨[], [("x", .link "."), ("y", .file content)], ?_⟩
    rw [hleading]
    exact walkFrom_link ⟨_, rfl⟩ rfl rfl ⟨by decide, by decide⟩ (by decide)
  have hresumes := Ledger.Resumes.loaded hsaved hreaches
  have hfiles : runner.ReadsAs publisher documents start (publisher.files ()) := fun _ => rfl
  exact ⟨hpublisher, hnamed, hdocuments, rfl, Keyed.ascending_nil, hok, _, hresumes, hfiles,
    idempotent_run hpublisher hnamed hdocuments rfl Keyed.ascending_nil hok hresumes hfiles⟩

/-- What was put in the place of the link cannot be reached through it. -/
theorem load_replaced_link (content : ByteArray) :
    Ledger.load (looped.put [] "x" (.file content)) "x/x" = ⟨{ path := "x/x" }, true⟩ := by
  have hwalk : (looped.put [] "x" (.file content)).walkFrom "x/x" true [.into "x", .into "x"]
      = .error .notADirectory := by
    unfold FileSystem.walkFrom
    rw [if_neg (by decide), if_neg (by decide), if_neg (by decide)]
    show Files.walk (.directory [("x", .file content)]) true Files.linkLimit []
      (.directory [("x", .file content)]) [.into "x", .into "x"] = _
    rw [Files.walk, if_neg (by decide)]
    show Files.walk (.directory [("x", .file content)]) true Files.linkLimit ["x"]
      (.file content) [.into "x"] = _
    simp [Files.walk]
  have hread : (looped.put [] "x" (.file content)).read "x/x" = .error .notADirectory := by
    have hsteps : Files.stepsOf "x/x" = [.into "x", .into "x"] := by decide
    rw [FileSystem.read, FileSystem.node, FileSystem.find, hsteps, hwalk]
  rw [Ledger.load, hread]
  rfl

/-- A ledger that was saved in the place of a link its path goes through is lost: a second
run creates the page once more. -/
theorem not_idempotent_of_replaced_link :
    let start : Progress Unit := ⟨{ path := "x/x" }, ()⟩
    let first := Runner.run {} agreeable [note] start
    agreeable.KeepsIds ∧ note.identity ≠ "" ∧ Hierarchy [note]
    ∧ Keyed.Ascending start.ledger.entries
    ∧ first.1.failed = 0
    ∧ ∃ ledger, first.2.ledger.Resumes (fun _ _ => True) ledger
    ∧ Runner.ReadsAs {} agreeable [note] start (agreeable.files ())
    ∧ (Runner.run {} agreeable [note] ⟨ledger, ()⟩).1.results = [⟨"a", "A", .created⟩] := by
  intro start first
  have hpath : first.2.ledger.path = "x/x" := by decide +kernel
  obtain ⟨content, hsaved⟩ : ∃ content,
      first.2.ledger.persist looped = (.ok (), looped.put [] "x" (.file content)) := by
    refine ⟨_, persist_looped ?_ ?_ ?_ ?_ (by decide) ?_⟩ <;> rw [hpath]
    · decide
    · exact ⟨by decide, by decide⟩
    all_goals decide
  have hresumes : first.2.ledger.Resumes (fun _ _ => True) _ := .loaded hsaved trivial
  rw [hpath, load_replaced_link] at hresumes
  exact ⟨agreeable_keepsIds, by decide, ⟨by decide, by decide⟩, Keyed.ascending_nil,
    by decide +kernel, _, hresumes, fun _ => rfl, by decide +kernel⟩

end Sync

end WikiPress
