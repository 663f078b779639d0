import WikiPress.Sync.Run
import WikiPress.Sync.Staging

/-!
# WikiPress.Proofs.Sync.Publisher

What runs rely on in a publisher, and what they see of it.

Design points:

* A publisher names new pages and leaves other pages their ids (`Publisher.KeepsIds`). It
  may refuse any draft, and publishing may do anything to its files.
* A publisher without a memory (`Publisher.Steady`) stands for a function of drafts. What a
  run does with it can be compared with what another run does.
* A run knows a publisher by its files and its answers. A publisher whose state tells more
  than another's, and which answers as that one does, makes no difference to a run
  (`run_seen`).
-/

namespace WikiPress.Sync

variable {σ τ : Type}

/-! ## Page ids -/

/-- Whether a publisher gives new pages an id and leaves other pages theirs. -/
structure Publisher.KeepsIds (publisher : Publisher σ) : Prop where
  named : ∀ {draft : Draft} {remote : σ} {id : String},
    (publisher.publish draft remote).1 = .ok id → draft.pageId = none → id ≠ ""
  kept : ∀ {draft : Draft} {remote : σ} {id pageId : String},
    (publisher.publish draft remote).1 = .ok id → draft.pageId = some pageId → id = pageId

/-- A staging area whose new ids are no empty ones is a publisher of this kind. -/
theorem StagingArea.keepsIds {area : StagingArea} (h : ∀ n, area.newId n ≠ "") :
    area.publisher.KeepsIds := by
  -- the id is chosen before the files are written, and writing them leaves it as it is
  have hid : ∀ {draft : Draft} {state : StagingState} {id : String},
      (area.publish draft state).1 = .ok id → id = draft.pageId.getD (area.newId state.used) := by
    intro draft state id hok
    unfold StagingArea.publish at hok
    cases hpage : draft.pageId with
    | none =>
        simp only [hpage] at hok
        generalize (stagePage (Files.join area.directory (area.newId state.used)) draft).run
          state.files = result at hok
        obtain ⟨answer, files⟩ := result
        cases answer with
        | error e => cases hok
        | ok _ => exact (Except.ok.inj hok).symm
    | some pageId =>
        simp only [hpage] at hok
        generalize (stagePage (Files.join area.directory pageId) draft).run
          state.files = result at hok
        obtain ⟨answer, files⟩ := result
        cases answer with
        | error e => cases hok
        | ok _ => exact (Except.ok.inj hok).symm
  constructor
  · intro draft state id hok hnone
    have hnew : id = draft.pageId.getD (area.newId state.used) := hid hok
    rw [hnone] at hnew
    rw [hnew]
    exact h state.used
  · intro draft state id pageId hok hsome
    have hold : id = draft.pageId.getD (area.newId state.used) := hid hok
    rw [hold, hsome]
    rfl

/-! ## Publishers without a memory -/

/-- Whether a publisher's answer to a draft depends on nothing but the draft, and publishing
leaves the files that documents are read from as they are. -/
structure Publisher.Steady (publisher : Publisher σ)
    (answer : Draft → Except PublishError String) : Prop where
  answers : ∀ draft remote, (publisher.publish draft remote).1 = answer draft
  files : ∀ draft remote, publisher.files (publisher.publish draft remote).2
    = publisher.files remote

/-! ## Publishers that answer alike -/

/-- Whether a publisher answers as another one does, whose state is seen in its own. -/
structure Publisher.AnswersAs (publisher : Publisher τ) (original : Publisher σ)
    (view : τ → σ) : Prop where
  files : ∀ state, publisher.files state = original.files (view state)
  answer : ∀ draft state,
    (publisher.publish draft state).1 = (original.publish draft (view state)).1
  state : ∀ draft state,
    view (publisher.publish draft state).2 = (original.publish draft (view state)).2

/-- A publisher that answers as one without a memory does has none either. -/
theorem Publisher.AnswersAs.steady {publisher : Publisher τ} {original : Publisher σ} {view : τ → σ}
    (h : publisher.AnswersAs original view) {answer : Draft → Except PublishError String}
    (hsteady : original.Steady answer) : publisher.Steady answer where
  answers draft state := (h.answer draft state).trans (hsteady.answers draft _)
  files draft state := by rw [h.files, h.state, hsteady.files, h.files]

/-- The state of a run as it is seen with another publisher. -/
def Progress.seen (view : τ → σ) (p : Progress τ) : Progress σ := ⟨p.ledger, view p.remote⟩

section Seen

variable {publisher : Publisher τ} {original : Publisher σ} {view : τ → σ}

theorem publishPage_seen (h : publisher.AnswersAs original view) (runner : Runner)
    (document : Document) (body parentId : String) (p : Progress τ) :
    (runner.publishPage publisher document body parentId p).1
        = (runner.publishPage original document body parentId (p.seen view)).1
      ∧ (runner.publishPage publisher document body parentId p).2.seen view
        = (runner.publishPage original document body parentId (p.seen view)).2 := by
  obtain ⟨ledger, remote⟩ := p
  unfold Runner.publishPage Progress.seen
  simp only
  split
  · exact ⟨rfl, rfl⟩
  split
  · exact ⟨rfl, rfl⟩
  · generalize hdraft : Draft.mk _ _ _ _ _ _ = draft
    have hanswer := h.answer draft remote
    have hstate := h.state draft remote
    generalize publisher.publish draft remote = published at hanswer hstate
    generalize original.publish draft (view remote) = expected at hanswer hstate
    obtain ⟨answer, after⟩ := published
    obtain ⟨answer', after'⟩ := expected
    obtain rfl : answer = answer' := hanswer
    obtain rfl : view after = after' := hstate
    cases answer with
    | error e => exact ⟨rfl, rfl⟩
    | ok id => exact ⟨rfl, rfl⟩

theorem syncDocument_seen (h : publisher.AnswersAs original view) (runner : Runner)
    (document : Document) (p : Progress τ) :
    (runner.syncDocument publisher document p).1
        = (runner.syncDocument original document (p.seen view)).1
      ∧ (runner.syncDocument publisher document p).2.1
        = (runner.syncDocument original document (p.seen view)).2.1
      ∧ (runner.syncDocument publisher document p).2.2.seen view
        = (runner.syncDocument original document (p.seen view)).2.2 := by
  unfold Runner.syncDocument
  have hfiles : publisher.files p.remote = original.files (p.seen view).remote := h.files p.remote
  have hledger : (p.seen view).ledger = p.ledger := rfl
  simp only [hfiles, hledger]
  split
  · exact ⟨rfl, rfl, rfl⟩
  · next page _ =>
      split
      · exact ⟨rfl, rfl, rfl⟩
      · next parentId ledger _ =>
          obtain ⟨houtcome, hstate⟩ := publishPage_seen h runner document page.body parentId
            { p with ledger }
          exact ⟨houtcome, rfl, hstate⟩

theorem syncAll_seen (h : publisher.AnswersAs original view) (runner : Runner)
    (documents : List Document) (p : Progress τ) :
    (runner.syncAll publisher documents p).1
        = (runner.syncAll original documents (p.seen view)).1
      ∧ (runner.syncAll publisher documents p).2.seen view
        = (runner.syncAll original documents (p.seen view)).2 := by
  induction documents generalizing p with
  | nil => exact ⟨rfl, rfl⟩
  | cons document rest ih =>
      obtain ⟨houtcome, hmissing, hstate⟩ := syncDocument_seen h runner document p
      obtain ⟨hreport, hrest⟩ := ih (runner.syncDocument publisher document p).2.2
      rw [hstate] at hreport hrest
      simp only [Runner.syncAll, houtcome, hmissing, hreport, hrest, and_self]

/-- A run goes the same way with publishers that answer alike. -/
theorem run_seen (h : publisher.AnswersAs original view) (runner : Runner)
    (documents : List Document) (p : Progress τ) :
    (runner.run publisher documents p).1 = (runner.run original documents (p.seen view)).1
      ∧ (runner.run publisher documents p).2.seen view
        = (runner.run original documents (p.seen view)).2 :=
  syncAll_seen h runner (inOrder documents) p

end Seen

/-! ## A publisher to try runs with -/

/-- A publisher over files it never touches. It refuses some documents and names the page
of any other after the document. -/
def refusing (files : Files.FileSystem) (refused : List String) : Publisher Unit where
  files _ := files
  publish draft _ :=
    if draft.identity ∈ refused then (.error (.rejected draft.title), ())
    else (.ok (draft.pageId.getD ("id-" ++ draft.identity)), ())

/-- What it answers. -/
def refusal (refused : List String) (draft : Draft) : Except PublishError String :=
  if draft.identity ∈ refused then .error (.rejected draft.title)
  else .ok (draft.pageId.getD ("id-" ++ draft.identity))

theorem refusing_steady (files : Files.FileSystem) (refused : List String) :
    (refusing files refused).Steady (refusal refused) where
  answers draft _ := by
    simp only [refusing, refusal]
    split <;> rfl
  files _ _ := rfl

theorem refusing_keepsIds (files : Files.FileSystem) (refused : List String) :
    (refusing files refused).KeepsIds where
  named h hnone := by
    simp only [refusing] at h
    split at h
    · cases h
    · cases h
      simp [hnone]
  kept h hsome := by
    simp only [refusing] at h
    split at h
    · cases h
    · cases h
      simp [hsome]

end WikiPress.Sync
