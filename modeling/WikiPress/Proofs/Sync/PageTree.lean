import WikiPress.Proofs.Sync.Hierarchy

/-!
# WikiPress.Proofs.Sync.PageTree

The tree of pages has the shape of the tree of documents.

Design points:

* `Publisher.watched` notes every draft it is handed, also those it refuses.
  `handed_syncAll` traces each of them to the turn it was handed in.
* The id a page is put below is read in the middle of a run, and the statements are about
  its end. Between the two nobody touches the entry of the page above
  (`Turn.pageAbove_eq`).
-/

namespace WikiPress.Sync

variable {σ : Type}

/-! ## The drafts that are handed over -/

/-- The publisher, with a note of every draft it was handed, the last one first. -/
def Publisher.watched (publisher : Publisher σ) : Publisher (σ × List Draft) where
  files state := publisher.files state.1
  publish draft state :=
    let (answer, remote) := publisher.publish draft state.1
    (answer, (remote, draft :: state.2))

theorem watched_answersAs (publisher : Publisher σ) :
    publisher.watched.AnswersAs publisher Prod.fst where
  files _ := rfl
  answer _ _ := rfl
  state _ _ := rfl

variable {runner : Runner} {publisher : Publisher σ}

/-- A turn hands over one draft at most: that of its document, to go below a page that is
there. -/
theorem Takes.handed {document : Document} {p q : Progress (σ × List Draft)} {outcome : Outcome}
    (h : Takes runner publisher.watched document p outcome q) {draft : Draft}
    (hdraft : draft ∈ q.remote.2) :
    draft ∈ p.remote.2 ∨ Anchored p.ledger document ∧ ∃ body,
      draft = document.draft (p.ledger.known document.identity) body
        (runner.pageAbove p.ledger document) := by
  cases h with
  | unreadable | stranded | settled | foreseen => exact Or.inl hdraft
  | refused _ _ hanchored _ hanswer _ | accepted _ _ hanchored _ hanswer _ =>
      -- whatever the answer is, the draft was noted
      have hnoted := congrArg (fun published => published.2.2) hanswer
      rw [← hnoted] at hdraft
      rcases List.mem_cons.1 hdraft with rfl | hearlier
      · exact Or.inr ⟨hanchored, _, rfl⟩
      · exact Or.inl hearlier

/-- Every draft was handed over before, or in the turn of one of the documents. -/
theorem handed_syncAll {documents : List Document} {p : Progress (σ × List Draft)}
    {draft : Draft} (hdraft : draft ∈ (runner.syncAll publisher.watched documents p).2.remote.2) :
    draft ∈ p.remote.2 ∨ ∃ taken document rest, documents = taken ++ document :: rest
      ∧ let turn := (runner.syncAll publisher.watched taken p).2
        Anchored turn.ledger document ∧ ∃ body,
          draft = document.draft (turn.ledger.known document.identity) body
            (runner.pageAbove turn.ledger document) := by
  induction documents generalizing p with
  | nil => exact Or.inl hdraft
  | cons document rest ih =>
      have hstep := takes_syncDocument runner publisher.watched document p
      rcases ih hdraft with hearlier | ⟨taken, later, after, rfl, hturn⟩
      · rcases hstep.handed hearlier with hbefore | hturn
        · exact Or.inl hbefore
        · exact Or.inr ⟨[], document, rest, rfl, hturn⟩
      · exact Or.inr ⟨document :: taken, later, after, rfl, hturn⟩

/-! ## The tree of pages -/

/-- **After a run the pages form the tree of their documents.** A document that did not fail
has a page, recorded below the page the document above has at the end of the run, or below
the root page. No draft is handed to the publisher, be it accepted or refused, to go
anywhere else; so nothing is published below a document without a page. -/
theorem page_tree_of_run {publisher : Publisher σ} (hpublisher : publisher.KeepsIds)
    {documents : List Document} (hnamed : ∀ document ∈ documents, document.identity ≠ "")
    (h : Hierarchy documents) {runner : Runner} (hreal : runner.dryRun = false)
    (start : Progress σ) :
    let report := (runner.run publisher documents start).1
    let done := (runner.run publisher documents start).2
    let handed := (runner.run publisher.watched documents
      ⟨start.ledger, (start.remote, [])⟩).2.remote.2
    (∀ document ∈ documents, ∃ outcome, report.outcome? document.identity = some outcome
      ∧ (outcome.isFailure = false →
        (done.ledger.entry document.identity).id ≠ ""
          ∧ (done.ledger.entry document.identity).parentId = runner.pageAbove done.ledger document
          ∧ Anchored done.ledger document))
    ∧ ∀ draft ∈ handed, ∃ document ∈ documents, draft.identity = document.identity
      ∧ draft.parentId = runner.pageAbove done.ledger document
      ∧ Anchored done.ledger document := by
  intro report done handed
  constructor
  · intro document hmem
    obtain ⟨taken, rest, outcome, q, hsplit, hturn⟩ := exists_turn runner publisher h hmem start
    refine ⟨outcome, hturn.reported, fun hok => ?_⟩
    obtain ⟨page, hpage, hsettled, hanchored⟩ :=
      hturn.takes.settled_of_not_failure (hnamed document hmem) hpublisher hreal hok
    rw [← hturn.final, ← hturn.pageAbove_eq] at hsettled
    exact ⟨by simpa [Entry.isNew] using hsettled.published, hsettled.parentId,
      hturn.anchored_iff.2 hanchored⟩
  · intro draft hdraft
    rcases handed_syncAll hdraft with hbefore |
      ⟨taken, document, rest, hsplit, hanchored, body, rfl⟩
    · cases hbefore
    · obtain ⟨outcome, q, hturn⟩ := turn_of_split runner publisher.watched h hsplit
        ⟨start.ledger, (start.remote, [])⟩
      have hmem : document ∈ documents := mem_inOrder.1 (by simp [hsplit])
      -- the run that is watched ends with the same ledger
      have hledger : (runner.run publisher.watched documents
          ⟨start.ledger, (start.remote, [])⟩).2.ledger = done.ledger :=
        congrArg Progress.ledger (run_seen (watched_answersAs publisher) runner documents
          ⟨start.ledger, (start.remote, [])⟩).2
      have hparent := hturn.pageAbove_eq
      have hthere := hturn.anchored_iff.2 hanchored
      rw [hledger] at hparent hthere
      exact ⟨document, hmem, rfl, hparent.symm, hthere⟩

/-- A section that is refused, with a page below it and one beside it, given leaf first. -/
theorem page_tree_of_refused_section :
    let publisher := refusing { root := .directory [], workingDirectory := [] } ["b"]
    let documents := [blank "b/x" "b" 2, blank "b" "home" 1, blank "a" "home" 1, blank "home" "" 0]
    let runner : Runner := { rootPageId := "space" }
    let report := (runner.run publisher documents ⟨{ path := "state.json" }, ()⟩).1
    let done := (runner.run publisher documents ⟨{ path := "state.json" }, ()⟩).2
    let handed := (runner.run publisher.watched documents
      ⟨{ path := "state.json" }, ((), [])⟩).2.remote.2
    publisher.KeepsIds ∧ (∀ document ∈ documents, document.identity ≠ "")
    ∧ Hierarchy documents ∧ runner.dryRun = false
    ∧ (∀ document ∈ documents, ∃ outcome, report.outcome? document.identity = some outcome
      ∧ (outcome.isFailure = false →
        (done.ledger.entry document.identity).id ≠ ""
          ∧ (done.ledger.entry document.identity).parentId = runner.pageAbove done.ledger document
          ∧ Anchored done.ledger document))
    ∧ ∀ draft ∈ handed, ∃ document ∈ documents, draft.identity = document.identity
      ∧ draft.parentId = runner.pageAbove done.ledger document
      ∧ Anchored done.ledger document := by
  intro publisher documents runner report done handed
  have hdocuments : Hierarchy documents := ⟨by decide, by decide⟩
  have hnamed : ∀ document ∈ documents, document.identity ≠ "" := by decide
  have hpublisher : publisher.KeepsIds := refusing_keepsIds _ _
  exact ⟨hpublisher, hnamed, hdocuments, rfl,
    page_tree_of_run hpublisher hnamed hdocuments rfl _⟩

end WikiPress.Sync
