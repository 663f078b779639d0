import WikiPress.Proofs.Sync.Idempotence
import WikiPress.Proofs.Sync.Verdict

/-!
# WikiPress.Proofs.Sync.Convergence

Runs that were cut short by refusals leave nothing behind but work already done.

Design points:

* A publisher that names pages after their documents gives a page the same id whenever it is
  created (`Ledger.pageId`). No run changes what this id is, whichever drafts it has accepted
  (`pageId_syncAll`).
* A run in which every draft is accepted leaves entries that depend on these ids, the files
  and the root page, and on nothing else in the ledger (`Concludes.entry_of_acceptance`). It
  leaves an entry for each document.
* What runs before may add to a ledger are entries of documents (`Attempted`), so that there is
  no trace of them in the end.
-/

namespace WikiPress

open WikiPress.Files (FileSystem)

/-- The id of a document's page: the one it has, or the one it will be given. -/
def Ledger.pageId (newId : String → String) (ledger : Ledger) (identity : String) : String :=
  if (ledger.entry identity).id = "" then newId identity else (ledger.entry identity).id

theorem Ledger.pageId_ne {newId : String → String} (hnew : ∀ identity, newId identity ≠ "")
    (ledger : Ledger) (identity : String) : ledger.pageId newId identity ≠ "" := by
  unfold pageId
  split
  · exact hnew identity
  · next hid => exact hid

namespace Sync

variable {σ τ : Type} {runner : Runner} {publisher : Publisher σ} {newId : String → String}

/-! ## Publishers that name pages after documents -/

/-- Whether a publisher gives a new page an id by its document, and leaves other pages theirs. It
may refuse any draft. -/
def Publisher.NamesPages (publisher : Publisher σ) (newId : String → String) : Prop :=
  ∀ draft remote id, (publisher.publish draft remote).1 = .ok id →
    id = draft.pageId.getD (newId draft.identity)

/-- The answers of such a publisher that refuses none. -/
def acceptance (newId : String → String) (draft : Draft) : Except PublishError String :=
  .ok (draft.pageId.getD (newId draft.identity))

/-- A turn does not change what the id of a page is. -/
theorem Takes.pageId_eq (hpublisher : publisher.NamesPages newId) {document : Document}
    {p q : Progress σ} {outcome : Outcome} (h : Takes runner publisher document p outcome q)
    {identity : String} (hnamed : identity ≠ "") :
    q.ledger.pageId newId identity = p.ledger.pageId newId identity := by
  unfold Ledger.pageId
  by_cases hown : identity = document.identity
  · subst hown
    cases h with
    | unreadable => rfl
    | stranded _ _ _ hsame | settled _ _ _ hsame | foreseen _ _ _ hsame
    | refused _ _ _ _ _ hsame => rw [hsame.entry]
    | @accepted page ledger id remote _ _ _ _ hanswer hrenews =>
        rw [Ledger.known_of_named hnamed] at hanswer
        have hid := hpublisher _ _ _ (congrArg Prod.fst hanswer)
        simp only [hrenews.own hnamed, hid, Document.draft]
        cases hnew : (p.ledger.entry document.identity).isNew with
        | true =>
            have hnone : (p.ledger.entry document.identity).id = "" := by
              simpa [Entry.isNew] using hnew
            simp [hnone]
        | false => rfl
  · rw [h.entry_of_ne hown]

theorem pageId_syncAll (hpublisher : publisher.NamesPages newId) (order : List Document)
    (p : Progress σ) {identity : String} (hnamed : identity ≠ "") :
    (runner.syncAll publisher order p).2.ledger.pageId newId identity
      = p.ledger.pageId newId identity := by
  induction order generalizing p with
  | nil => rfl
  | cons document rest ih =>
      exact (ih _).trans
        ((takes_syncDocument runner publisher document p).pageId_eq hpublisher hnamed)

/-! ## Runs that are cut short -/

theorem Runner.Asks.mem {fs : FileSystem} {ledger : Ledger} {documents : List Document}
    (h : Hierarchy documents) {document : Document} (hmem : document ∈ documents)
    {identity : String} (hasks : runner.Asks fs ledger document identity) :
    identity ∈ documents.map Document.identity := by
  obtain ⟨_, ⟨rfl, habove⟩ | ⟨rfl, _⟩⟩ := hasks
  · obtain ⟨parent, hparent, hidentity, _⟩ := h.above document hmem habove
    exact hidentity ▸ List.mem_map_of_mem hparent
  · exact List.mem_map_of_mem hmem

/-- Entries that are there stay, and new ones are those of documents. -/
theorem has_syncAll (runner : Runner) (publisher : Publisher σ) {documents : List Document}
    (hnamed : ∀ document ∈ documents, document.identity ≠ "") (h : Hierarchy documents)
    {order : List Document} (horder : order ⊆ documents) (p : Progress σ) (identity : String) :
    (p.ledger.Has identity → (runner.syncAll publisher order p).2.ledger.Has identity)
      ∧ ((runner.syncAll publisher order p).2.ledger.Has identity →
        p.ledger.Has identity ∨ identity ∈ documents.map Document.identity) := by
  induction order generalizing p with
  | nil => exact ⟨id, Or.inl⟩
  | cons document rest ih =>
      obtain ⟨hfirst, hrest⟩ := List.cons_subset.1 horder
      have hstep := has_syncDocument runner publisher (hnamed document hfirst) p identity
      obtain ⟨hkept, hnew⟩ := ih hrest (runner.syncDocument publisher document p).2.2
      refine ⟨fun hhas => hkept (hstep.2 (Or.inl hhas)), fun hhas => ?_⟩
      rcases hnew hhas with hhas | hmem
      · exact (hstep.1 hhas).imp_right fun hasks => hasks.mem h hfirst
      · exact Or.inr hmem

/-- What is left of a ledger by runs over documents that were cut short: page ids and the entries
of all but the documents are as they were. -/
structure Attempted (newId : String → String) (documents : List Document) (start ledger : Ledger) :
    Prop where
  pageId : ∀ identity, identity ≠ "" →
    ledger.pageId newId identity = start.pageId newId identity
  others : ∀ identity ∉ documents.map Document.identity,
    ledger.entry identity = start.entry identity
  kept : ∀ identity, start.Has identity → ledger.Has identity
  new : ∀ identity, ledger.Has identity →
    start.Has identity ∨ identity ∈ documents.map Document.identity

/-- A ledger after any number of runs over documents. The runs may have settings and publishers
of their own, all of which name pages after documents and may refuse any draft. In between, the
ledger may have been saved and loaded again. -/
inductive Attempts (newId : String → String) (documents : List Document) (start : Ledger) :
    Ledger → Prop
  /-- No run yet. -/
  | none : Attempts newId documents start start
  /-- One more run. -/
  | run {ledger : Ledger} {σ : Type} {publisher : Publisher σ} (runner : Runner) (remote : σ) :
      Attempts newId documents start ledger → publisher.NamesPages newId →
      Attempts newId documents start (runner.run publisher documents ⟨ledger, remote⟩).2.ledger
  /-- The ledger is saved and loaded. -/
  | resumed {ledger ledger' : Ledger} :
      Attempts newId documents start ledger → ledger.Resumes Files.Reaches ledger' →
      Attempts newId documents start ledger'

theorem Attempts.attempted {documents : List Document} (h : Hierarchy documents)
    (hnamed : ∀ document ∈ documents, document.identity ≠ "") {start ledger : Ledger}
    (hordered : Keyed.Ascending start.entries) (hattempts : Attempts newId documents start ledger) :
    Keyed.Ascending ledger.entries ∧ Attempted newId documents start ledger := by
  induction hattempts with
  | none => exact ⟨hordered, ⟨fun _ _ => rfl, fun _ _ => rfl, fun _ => id, fun _ => Or.inl⟩⟩
  | @run ledger σ publisher runner remote _ hpublisher ih =>
      obtain ⟨hordered, hledger⟩ := ih
      refine ⟨ascending_syncAll hordered, ?_, fun identity hnew => ?_, fun identity => ?_,
        fun identity hhas => ?_⟩
      · exact fun identity hne => (pageId_syncAll hpublisher _ _ hne).trans (hledger.pageId _ hne)
      · rw [← hledger.others identity hnew]
        exact entry_syncAll
          (fun hmem => hnew (((inOrder_perm documents).map _).mem_iff.1 hmem)) _
      all_goals
        obtain ⟨hkept, hnew⟩ := has_syncAll runner publisher hnamed h
          (fun _ => mem_inOrder.1) ⟨ledger, remote⟩ identity
      · exact fun hhas => hkept (hledger.kept identity hhas)
      · rcases hnew hhas with hhas | hmem
        · exact hledger.new identity hhas
        · exact Or.inr hmem
  | resumed _ hresumes ih =>
      obtain ⟨hordered, hledger⟩ := ih
      have hentries := (hresumes.eq hordered).2
      refine ⟨hentries ▸ hordered, ?_⟩
      obtain ⟨hpageId, hothers, hkept, hnew⟩ := hledger
      simp only [Ledger.pageId, Ledger.entry, Ledger.Has, ← hentries] at hpageId hothers hkept hnew
      exact ⟨hpageId, hothers, hkept, hnew⟩

/-! ## The last run -/

section LastRun

variable {documents : List Document} {fs : FileSystem} {start done : Ledger}

/-- The verdict of a publisher that accepts every draft. -/
theorem verdict_of_acceptance (hreal : runner.dryRun = false) {document : Document}
    {page : Storage.Page} (hpage : runner.render fs document = .ok page)
    (hanchored : Anchored done document) :
    (runner.verdict (acceptance newId) fs done document (start.entry document.identity)).2
      = { id := start.pageId newId document.identity, hash := Digest.ofText page.body,
          parentId := runner.pageAbove done document } := by
  unfold Runner.verdict Ledger.pageId
  generalize start.entry document.identity = own
  simp only [hpage, hreal, hanchored, not_true, and_false, if_false, Bool.false_eq_true, acceptance]
  split
  -- what is settled says the same already
  · next hsettled =>
      have hid : own.id ≠ "" := by simpa [Entry.isNew] using hsettled.published
      rw [if_neg hid, ← hsettled.hash, ← hsettled.parentId]
  · by_cases hid : own.id = "" <;> simp [Document.draft, Entry.isNew, hid]

variable (h : Hierarchy documents) (hreal : runner.dryRun = false)
  (hreads : ∀ document ∈ documents, runner.Reads fs document)
  (hnew : ∀ identity, newId identity ≠ "")

include h hreal hreads hnew

theorem Concludes.anchored_of_acceptance
    (hdone : Concludes runner (acceptance newId) fs documents start done) :
    ∀ document ∈ documents, Anchored done document := by
  -- from level to level, down the tree
  refine h.induct fun document _ ih => ?_
  by_contra hnone
  obtain ⟨habove, hid⟩ := not_anchored_iff.1 hnone
  obtain ⟨parent, hparent, hidentity, hanchored⟩ := ih habove
  obtain ⟨page, hpage⟩ := hreads parent hparent
  rw [← hidentity, hdone.entry parent hparent, verdict_of_acceptance hreal hpage hanchored] at hid
  exact start.pageId_ne hnew _ hid

/-- Every document has the entry of its page. -/
theorem Concludes.entry_of_acceptance
    (hdone : Concludes runner (acceptance newId) fs documents start done) {document : Document}
    (hmem : document ∈ documents) {page : Storage.Page}
    (hpage : runner.render fs document = .ok page) :
    done.entry document.identity
      = { id := start.pageId newId document.identity, hash := Digest.ofText page.body,
          parentId := runner.pageAbove done document } := by
  rw [hdone.entry document hmem, verdict_of_acceptance hreal hpage
    (hdone.anchored_of_acceptance h hreal hreads hnew document hmem)]

/-- Every document is up to date. -/
theorem Concludes.upToDate_of_acceptance
    (hdone : Concludes runner (acceptance newId) fs documents start done) {document : Document}
    (hmem : document ∈ documents) : runner.UpToDate fs done document := by
  obtain ⟨page, hpage⟩ := hreads document hmem
  refine ⟨page, hpage, ?_, hdone.anchored_of_acceptance h hreal hreads hnew document hmem⟩
  rw [hdone.entry_of_acceptance h hreal hreads hnew hmem hpage]
  exact ⟨by simpa [Entry.isNew] using start.pageId_ne hnew _, rfl, rfl⟩

/-- Every document has an entry. -/
theorem Concludes.has_of_acceptance
    (hdone : Concludes runner (acceptance newId) fs documents start done) (identity : String) :
    done.Has identity ↔ start.Has identity ∨ identity ∈ documents.map Document.identity := by
  rw [hdone.has]
  refine or_congr_right ⟨fun ⟨document, hmem, hasks⟩ => hasks.mem h hmem, fun hmem => ?_⟩
  obtain ⟨document, hdocument, rfl⟩ := List.mem_map.1 hmem
  exact ⟨document, hdocument, hreads document hdocument, Or.inr ⟨rfl,
    Or.inr (hdone.anchored_of_acceptance h hreal hreads hnew document hdocument)⟩⟩

/-- What was left by earlier runs is not seen behind a run in which every draft is accepted. -/
theorem Attempted.find?_eq {ledger once : Ledger} (hledger : Attempted newId documents start ledger)
    (hnamed : ∀ document ∈ documents, document.identity ≠ "")
    (hdone : Concludes runner (acceptance newId) fs documents ledger done)
    (honce : Concludes runner (acceptance newId) fs documents start once) (identity : String) :
    Keyed.find? identity done.entries = Keyed.find? identity once.entries := by
  apply Ledger.find?_eq_of_entry
  · rw [hdone.has_of_acceptance h hreal hreads hnew, honce.has_of_acceptance h hreal hreads hnew]
    exact ⟨fun hhas => hhas.elim (hledger.new identity) Or.inr, Or.imp_left (hledger.kept identity)⟩
  by_cases hmem : identity ∈ documents.map Document.identity
  · obtain ⟨document, hdocument, rfl⟩ := List.mem_map.1 hmem
    obtain ⟨page, hpage⟩ := hreads document hdocument
    -- the page above has the same id in both
    have habove : SameAbove once done document := by
      intro htop
      obtain ⟨parent, hparent, hidentity, _⟩ := h.above document hdocument htop
      obtain ⟨above, hread⟩ := hreads parent hparent
      rw [← hidentity, hdone.entry_of_acceptance h hreal hreads hnew hparent hread,
        honce.entry_of_acceptance h hreal hreads hnew hparent hread]
      exact hledger.pageId _ (hnamed parent hparent)
    rw [hdone.entry_of_acceptance h hreal hreads hnew hdocument hpage,
      honce.entry_of_acceptance h hreal hreads hnew hdocument hpage,
      hledger.pageId _ (hnamed document hdocument), habove.pageAbove_eq]
  · rw [hdone.others identity hmem, honce.others identity hmem, hledger.others identity hmem]

end LastRun

/-- **Runs that are cut short converge.** However many runs there were before and whatever drafts
were refused in them, a run in which every draft is accepted ends with the entries with which
a single one would have ended. Every document is up to date then. -/
theorem run_after_attempts (hnew : ∀ identity, newId identity ≠ "") {documents : List Document}
    (hnamed : ∀ document ∈ documents, document.identity ≠ "") (h : Hierarchy documents)
    {runner : Runner} (hreal : runner.dryRun = false) {fs : FileSystem}
    (hreads : ∀ document ∈ documents, runner.Reads fs document) {start ledger : Ledger}
    (hordered : Keyed.Ascending start.entries) (hattempts : Attempts newId documents start ledger)
    {last : Publisher σ} (hlast : last.Steady (acceptance newId)) {remote : σ}
    (hfiles : last.files remote = fs)
    {single : Publisher τ} (hsingle : single.Steady (acceptance newId)) {remote' : τ}
    (hfiles' : single.files remote' = fs) :
    let done := (runner.run last documents ⟨ledger, remote⟩).2.ledger
    done.entries = (runner.run single documents ⟨start, remote'⟩).2.ledger.entries
      ∧ ∀ document ∈ documents, runner.UpToDate fs done document := by
  obtain ⟨hordered', hattempted⟩ := hattempts.attempted h hnamed hordered
  have hdone := (concludes_run runner hlast h hnamed ⟨ledger, remote⟩).2
  have honce := (concludes_run runner hsingle h hnamed ⟨start, remote'⟩).2
  simp only [hfiles, hfiles'] at hdone honce
  refine ⟨?_, fun document hmem => hdone.upToDate_of_acceptance h hreal hreads hnew hmem⟩
  exact Keyed.ext (ascending_syncAll hordered') (ascending_syncAll hordered)
    (hattempted.find?_eq h hreal hreads hnew hnamed hdone honce)

/-- A run that created the root page, had a section refused and left out the page below it. Then
a run that publishes all of them. -/
theorem run_after_attempts_refused_section :
    let newId := fun identity => "id-" ++ identity
    let files : FileSystem := { root := .directory [], workingDirectory := [] }
    let last := refusing files []
    let documents := [blank "home" "" 0, blank "b" "home" 1, blank "b/x" "b" 2]
    let runner : Runner := { rootPageId := "space" }
    let start : Ledger := { path := "state.json", entries := [("b/x", { id := "7" })] }
    let ledger := (runner.run (refusing files ["b"]) documents ⟨start, ()⟩).2.ledger
    (∀ identity, newId identity ≠ "") ∧ (∀ document ∈ documents, document.identity ≠ "")
      ∧ Hierarchy documents ∧ runner.dryRun = false
      ∧ (∀ document ∈ documents, runner.Reads files document)
      ∧ Keyed.Ascending start.entries ∧ Attempts newId documents start ledger
      ∧ last.Steady (acceptance newId) ∧ last.files () = files
      ∧ (let done := (runner.run last documents ⟨ledger, ()⟩).2.ledger
        done.entries = (runner.run last documents ⟨start, ()⟩).2.ledger.entries
          ∧ ∀ document ∈ documents, runner.UpToDate files done document) := by
  intro newId files last documents runner start ledger
  have hnew : ∀ identity, newId identity ≠ "" := by simp [newId]
  have hnamed : ∀ document ∈ documents, document.identity ≠ "" := by decide
  have hdocuments : Hierarchy documents := ⟨by decide, by decide⟩
  have hreads : ∀ document ∈ documents, runner.Reads files document := by
    simp only [documents, List.forall_mem_cons]
    exact ⟨⟨_, rfl⟩, ⟨_, rfl⟩, ⟨_, rfl⟩, List.forall_mem_nil _⟩
  have hordered : Keyed.Ascending start.entries := by decide
  have hnames : (refusing files ["b"]).NamesPages newId := by
    intro draft remote id hok
    simp only [refusing] at hok
    split at hok
    · cases hok
    · exact (Except.ok.inj hok).symm
  have hattempts : Attempts newId documents start ledger := .run runner () .none hnames
  have hlast : last.Steady (acceptance newId) := refusing_steady files []
  exact ⟨hnew, hnamed, hdocuments, rfl, hreads, hordered, hattempts, hlast, rfl,
    run_after_attempts hnew hnamed hdocuments rfl hreads hordered hattempts hlast rfl hlast rfl⟩

end Sync

end WikiPress
