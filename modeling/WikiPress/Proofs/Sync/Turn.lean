import WikiPress.Proofs.Ledger.Store
import WikiPress.Proofs.Sync.Publisher

/-!
# WikiPress.Proofs.Sync.Turn

What a run does when it is a document's turn.

Design points:

* What a ledger says is `Ledger.entry`. A turn leaves all of it as it is
  (`Ledger.Same`), or renews the entry of its own document and no other
  (`Ledger.Renews`).
* `Takes` has one constructor for each way a turn can go, with everything that led to it.
  Facts about turns are case analyses of it, and nothing else opens `syncDocument`.
* The files of a run belong to the publisher's state and may change with every draft.
  `Takes` speaks of the files its document is read from.
-/

namespace WikiPress

/-! ## Ledgers before and after -/

/-- Whether two ledgers say the same about every document. -/
structure Ledger.Same (before after : Ledger) : Prop where
  entry : ∀ identity, after.entry identity = before.entry identity
  ascending : Keyed.Ascending before.entries → Keyed.Ascending after.entries

/-- Whether a ledger differs from an earlier one in the entry of one document, which has none
if it has no name. -/
structure Ledger.Renews (before after : Ledger) (identity : String) (value : Entry) : Prop where
  own : identity ≠ "" → after.entry identity = value
  others : ∀ other, other ≠ identity → after.entry other = before.entry other
  ascending : Keyed.Ascending before.entries → Keyed.Ascending after.entries

namespace Ledger

/-- What is known of a document: nothing, if it has no name. -/
def known (ledger : Ledger) (identity : String) : Entry :=
  if identity = "" then {} else ledger.entry identity

theorem known_of_named {ledger : Ledger} {identity : String} (h : identity ≠ "") :
    ledger.known identity = ledger.entry identity :=
  if_neg h

theorem Same.known {before after : Ledger} (h : Same before after) (identity : String) :
    after.known identity = before.known identity := by
  unfold Ledger.known
  rw [h.entry]

theorem Same.refl (ledger : Ledger) : Same ledger ledger := ⟨fun _ => rfl, id⟩

theorem Same.trans {a b c : Ledger} (h : Same a b) (h' : Same b c) : Same a c where
  entry identity := (h'.entry identity).trans (h.entry identity)
  ascending hordered := h'.ascending (h.ascending hordered)

theorem same_entryFor (ledger : Ledger) (identity : String) :
    Same ledger (ledger.entryFor identity).2 where
  entry := entry_entryFor ledger identity
  ascending hordered := ascending_entryFor hordered identity

/-- The handle of a document reads what is known of it. -/
theorem read_entryFor (ledger : Ledger) (identity : String) :
    (ledger.entryFor identity).2.read (ledger.entryFor identity).1 = ledger.known identity := by
  by_cases h : identity = ""
  · simp [entryFor, read, known, h]
  · rw [entryFor_handle h, known_of_named h]
    exact entry_entryFor ledger identity identity

theorem renews_commit {before asked : Ledger} (h : Same before asked) (identity : String)
    (value : Entry) :
    Renews before ((asked.entryFor identity).2.commit (asked.entryFor identity).1 value) identity
      value := by
  have hsame := h.trans (same_entryFor asked identity)
  by_cases hnamed : identity = ""
  -- the cell of a document without a name is in no entry
  · have hentries : ((asked.entryFor identity).2.commit (asked.entryFor identity).1 value).entries
        = (asked.entryFor identity).2.entries := by
      simp [entryFor, commit, hnamed]
    have hentry : ∀ other, ((asked.entryFor identity).2.commit (asked.entryFor identity).1
        value).entry other = (asked.entryFor identity).2.entry other := by
      intro other
      unfold entry
      rw [hentries]
    exact ⟨fun h => absurd hnamed h, fun other _ => (hentry other).trans (hsame.entry other),
      fun hordered => hentries ▸ hsame.ascending hordered⟩
  · rw [entryFor_handle hnamed]
    refine ⟨fun _ => ?_, fun other hne => ?_, fun hordered => ?_⟩
    · rw [entry_commit, if_pos rfl]
    · rw [entry_commit, if_neg hne, hsame.entry]
    · exact ascending_commit (hsame.ascending hordered) identity value

end Ledger

namespace Sync

open WikiPress.Files (FileSystem)
open WikiPress.Storage (Page)

variable {σ : Type}

/-! ## One turn -/

/-- The id of the page above a document, as a ledger has it. -/
def Runner.pageAbove (runner : Runner) (ledger : Ledger) (document : Document) : String :=
  if document.parentIdentity = "" then runner.rootPageId
  else (ledger.entry document.parentIdentity).id

/-- Whether a document can be read. -/
def Runner.Reads (runner : Runner) (fs : FileSystem) (document : Document) : Prop :=
  ∃ page, runner.render fs document = .ok page

/-- Whether there is a page to put a document's page below. The top needs none. -/
def Anchored (ledger : Ledger) (document : Document) : Prop :=
  document.parentIdentity = "" ∨ (ledger.entry document.parentIdentity).id ≠ ""

instance (ledger : Ledger) (document : Document) : Decidable (Anchored ledger document) :=
  inferInstanceAs (Decidable (_ ∨ _))

theorem not_anchored_iff {ledger : Ledger} {document : Document} :
    ¬ Anchored ledger document
      ↔ document.parentIdentity ≠ "" ∧ (ledger.entry document.parentIdentity).id = "" := by
  rw [Anchored, not_or, not_not]

/-- Whether an entry says that a page was published with a body, below a page. -/
structure Settled (entry : Entry) (body parentId : String) : Prop where
  published : entry.isNew = false
  hash : entry.hash = Digest.ofText body
  parentId : entry.parentId = parentId

instance (entry : Entry) (body parentId : String) : Decidable (Settled entry body parentId) :=
  decidable_of_iff
    (entry.isNew = false ∧ entry.hash = Digest.ofText body ∧ entry.parentId = parentId)
    ⟨fun h => ⟨h.1, h.2.1, h.2.2⟩, fun h => ⟨h.published, h.hash, h.parentId⟩⟩

/-- The draft of a document's page, given the entry of the document. -/
def Document.draft (document : Document) (entry : Entry) (body parentId : String) : Draft where
  identity := document.identity
  title := document.title
  parentId := parentId
  pageId := if entry.isNew then none else some entry.id
  body := body
  attachments := document.attachments

/-- The ways a document's turn can go, from one state of a run to the next. -/
inductive Takes (runner : Runner) (publisher : Publisher σ) (document : Document)
    (p : Progress σ) : Outcome → Progress σ → Prop
  /-- The document cannot be read. -/
  | unreadable {e : Storage.ReadError} :
      runner.render (publisher.files p.remote) document = .error e →
      Takes runner publisher document p (.failed (.render e)) p
  /-- The page above has no id. Only a dry run goes on without. -/
  | stranded {page : Page} {ledger : Ledger} :
      runner.render (publisher.files p.remote) document = .ok page →
      runner.dryRun = false → ¬ Anchored p.ledger document → p.ledger.Same ledger →
      Takes runner publisher document p (.failed (.missingParent document.parentIdentity))
        ⟨ledger, p.remote⟩
  /-- The page is as it was published. -/
  | settled {page : Page} {ledger : Ledger} :
      runner.render (publisher.files p.remote) document = .ok page →
      runner.dryRun = true ∨ Anchored p.ledger document →
      Settled (p.ledger.known document.identity) page.body
        (runner.pageAbove p.ledger document) → p.ledger.Same ledger →
      Takes runner publisher document p .unchanged ⟨ledger, p.remote⟩
  /-- A dry run says what would be done. -/
  | foreseen {page : Page} {ledger : Ledger} :
      runner.render (publisher.files p.remote) document = .ok page →
      runner.dryRun = true →
      ¬ Settled (p.ledger.known document.identity) page.body
        (runner.pageAbove p.ledger document) → p.ledger.Same ledger →
      Takes runner publisher document p
        (if (p.ledger.known document.identity).isNew then .wouldCreate else .wouldUpdate)
        ⟨ledger, p.remote⟩
  /-- The publisher refuses the draft. -/
  | refused {page : Page} {ledger : Ledger} {e : PublishError} {remote : σ} :
      runner.render (publisher.files p.remote) document = .ok page →
      runner.dryRun = false → Anchored p.ledger document →
      ¬ Settled (p.ledger.known document.identity) page.body
        (runner.pageAbove p.ledger document) →
      publisher.publish (document.draft (p.ledger.known document.identity) page.body
        (runner.pageAbove p.ledger document)) p.remote = (.error e, remote) →
      p.ledger.Same ledger →
      Takes runner publisher document p (.failed (.publish e)) ⟨ledger, remote⟩
  /-- The publisher takes the draft, and the entry is renewed. -/
  | accepted {page : Page} {ledger : Ledger} {id : String} {remote : σ} :
      runner.render (publisher.files p.remote) document = .ok page →
      runner.dryRun = false → Anchored p.ledger document →
      ¬ Settled (p.ledger.known document.identity) page.body
        (runner.pageAbove p.ledger document) →
      publisher.publish (document.draft (p.ledger.known document.identity) page.body
        (runner.pageAbove p.ledger document)) p.remote = (.ok id, remote) →
      p.ledger.Renews ledger document.identity
        { id, hash := Digest.ofText page.body, parentId := runner.pageAbove p.ledger document } →
      Takes runner publisher document p
        (if (p.ledger.known document.identity).isNew then .created else .updated)
        ⟨ledger, remote⟩

/-- Asking for the page above gives its id and changes nothing that is said. A real run
fails if there is none. -/
theorem parentId_cases (runner : Runner) (document : Document) (ledger : Ledger) :
    ∃ asked, ledger.Same asked
      ∧ ((runner.parentId document ledger = (.ok (runner.pageAbove ledger document), asked)
            ∧ (runner.dryRun = true ∨ Anchored ledger document))
        ∨ (runner.parentId document ledger
              = (.error (.missingParent document.parentIdentity), asked)
            ∧ runner.dryRun = false ∧ ¬ Anchored ledger document)) := by
  unfold Runner.parentId Runner.pageAbove Anchored
  by_cases htop : document.parentIdentity = ""
  · exact ⟨ledger, .refl ledger, Or.inl ⟨by simp [htop], Or.inr (Or.inl htop)⟩⟩
  · refine ⟨(ledger.entryFor document.parentIdentity).2, Ledger.same_entryFor ledger _, ?_⟩
    have hread : (ledger.entryFor document.parentIdentity).2.read
        (ledger.entryFor document.parentIdentity).1 = ledger.entry document.parentIdentity := by
      rw [Ledger.entryFor_handle htop]
      exact Ledger.entry_entryFor ledger _ _
    simp only [String.isEmpty_iff, htop, if_false, hread, false_or]
    by_cases hid : (ledger.entry document.parentIdentity).id = ""
    · cases hdry : runner.dryRun <;> simp [hid]
    · simp [hid]

/-- A page is published, found settled or only looked at. -/
theorem takes_publishPage {runner : Runner} {publisher : Publisher σ} {document : Document}
    {p : Progress σ} {page : Page} {asked : Ledger}
    (hpage : runner.render (publisher.files p.remote) document = .ok page)
    (hasked : p.ledger.Same asked) (hanchored : runner.dryRun = true ∨ Anchored p.ledger document) :
    let step := runner.publishPage publisher document page.body
      (runner.pageAbove p.ledger document) ⟨asked, p.remote⟩
    Takes runner publisher document p step.1 step.2 := by
  intro step
  have hsame : p.ledger.Same (asked.entryFor document.identity).2 :=
    hasked.trans (Ledger.same_entryFor asked _)
  have hread := (Ledger.read_entryFor asked document.identity).trans
    (hasked.known document.identity)
  simp only [step, Runner.publishPage, hread]
  by_cases hsettled : Settled (p.ledger.known document.identity) page.body
      (runner.pageAbove p.ledger document)
  · rw [if_pos (by simp [hsettled.published, hsettled.hash, hsettled.parentId])]
    exact .settled hpage hanchored hsettled hsame
  rw [if_neg (by
    simp only [Bool.and_eq_true, Bool.not_eq_true', beq_iff_eq, not_and]
    exact fun ⟨hpublished, hhash⟩ hparentId => hsettled ⟨hpublished, hhash, hparentId⟩)]
  by_cases hdry : runner.dryRun = true
  · rw [if_pos hdry]
    exact .foreseen hpage hdry hsettled hsame
  rw [if_neg hdry]
  rw [Bool.not_eq_true] at hdry
  have hplace : Anchored p.ledger document := hanchored.resolve_left (by simp [hdry])
  split
  · next e remote hanswer => exact .refused hpage hdry hplace hsettled hanswer hsame
  · next id remote hanswer =>
      exact .accepted hpage hdry hplace hsettled hanswer (Ledger.renews_commit hasked _ _)

/-- A document's turn goes in one of these ways. -/
theorem takes_syncDocument (runner : Runner) (publisher : Publisher σ) (document : Document)
    (p : Progress σ) :
    let step := runner.syncDocument publisher document p
    Takes runner publisher document p step.1 step.2.2 := by
  intro step
  simp only [step, Runner.syncDocument]
  split
  · next e hpage => exact .unreadable hpage
  · next page hpage =>
      obtain ⟨asked, hasked, ⟨hparent, hanchored⟩ | ⟨hparent, hdry, hstranded⟩⟩ :=
        parentId_cases runner document p.ledger
      · rw [hparent]
        exact takes_publishPage hpage hasked hanchored
      · rw [hparent]
        exact .stranded hpage hdry hstranded hasked

namespace Takes

variable {runner : Runner} {publisher : Publisher σ} {document : Document} {p q : Progress σ}
  {outcome : Outcome}

/-- Only the document's own entry may change. -/
theorem entry_of_ne (h : Takes runner publisher document p outcome q) {identity : String}
    (hne : identity ≠ document.identity) : q.ledger.entry identity = p.ledger.entry identity := by
  cases h with
  | unreadable => rfl
  | stranded _ _ _ hsame | settled _ _ _ hsame | foreseen _ _ _ hsame | refused _ _ _ _ _ hsame =>
      exact hsame.entry identity
  | accepted _ _ _ _ _ hrenews => exact hrenews.others identity hne

/-- A page that is published has an id. -/
theorem id_ne_of_accepted (hpublisher : publisher.KeepsIds) {entry : Entry}
    {body parentId id : String} {state after : σ}
    (h : publisher.publish (document.draft entry body parentId) state = (.ok id, after)) :
    id ≠ "" := by
  have hok : (publisher.publish (document.draft entry body parentId) state).1 = .ok id := by
    rw [h]
  cases hnew : entry.isNew with
  | true => exact hpublisher.named hok (by simp [Document.draft, hnew])
  | false =>
      have hkept : id = entry.id := hpublisher.kept hok (by simp [Document.draft, hnew])
      rw [hkept]
      simpa [Entry.isNew] using hnew

/-- Where a real turn of a document with a name does not fail, its entry says what was
published, below a page that is there. -/
theorem settled_of_not_failure (h : Takes runner publisher document p outcome q)
    (hnamed : document.identity ≠ "") (hpublisher : publisher.KeepsIds)
    (hreal : runner.dryRun = false) (hok : outcome.isFailure = false) :
    ∃ page, runner.render (publisher.files p.remote) document = .ok page
      ∧ Settled (q.ledger.entry document.identity) page.body
        (runner.pageAbove p.ledger document) ∧ Anchored p.ledger document := by
  cases h with
  | unreadable | stranded | refused => cases hok
  | foreseen _ hdry _ _ => rw [hreal] at hdry; cases hdry
  | @settled page ledger hpage hanchored hsettled hsame =>
      refine ⟨page, hpage, ?_, hanchored.resolve_left (by simp [hreal])⟩
      show Settled (ledger.entry document.identity) _ _
      rw [hsame.entry, ← Ledger.known_of_named hnamed]
      exact hsettled
  | @accepted page ledger id remote hpage _ hanchored _ hanswer hrenews =>
      refine ⟨page, hpage, ?_, hanchored⟩
      show Settled (ledger.entry document.identity) _ _
      rw [hrenews.own hnamed]
      have hid := id_ne_of_accepted hpublisher hanswer
      exact ⟨by simpa [Entry.isNew] using hid, rfl, rfl⟩

theorem ascending (h : Takes runner publisher document p outcome q)
    (hordered : Keyed.Ascending p.ledger.entries) : Keyed.Ascending q.ledger.entries := by
  cases h with
  | unreadable => exact hordered
  | stranded _ _ _ hsame | settled _ _ _ hsame | foreseen _ _ _ hsame | refused _ _ _ _ _ hsame =>
      exact hsame.ascending hordered
  | accepted _ _ _ _ _ hrenews => exact hrenews.ascending hordered

end Takes

end Sync

end WikiPress
