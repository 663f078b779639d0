import WikiPress.Proofs.Sync.Scan

/-!
# WikiPress.Proofs.Sync.Forecast

A dry run says what a real run does.

Design points:

* A dry run changes nothing, so what it says of a document depends on the files and the
  ledger it starts with alone (`Runner.foresee`, `foreseen_syncAll`).
* A real run differs only in the ids of pages. An entry keeps the id it has, and one
  that has none is given none or a new one (`Ledger.Grows`). So a document is below the same
  page as in the ledger of the start, or below one that is new.
* A page can only be missing above a document in a real run if it is missing from the start
  and some document further up cannot be read (`not_anchored_iff_stranded`). A dry run takes
  no notice of it.
-/

namespace WikiPress

/-! ## Ids that are given -/

/-- Whether an id is in no entry of a ledger as that of the page above. -/
def Ledger.Fresh (ledger : Ledger) (id : String) : Prop :=
  id ≠ "" ∧ ∀ identity, (ledger.entry identity).parentId ≠ id

/-- Whether an entry of a ledger keeps the id it has, or has been given a new one. -/
def Ledger.Grows (new : String → Prop) (before after : Ledger) : Prop :=
  ∀ identity, identity ≠ "" →
    (after.entry identity).id = (before.entry identity).id
      ∨ (before.entry identity).id = "" ∧ new (after.entry identity).id

theorem Ledger.Grows.trans {new : String → Prop} {a b c : Ledger} (h : Grows new a b)
    (h' : Grows new b c) : Grows new a c := by
  intro identity hnamed
  rcases h' identity hnamed with hkept | ⟨hnone, hnew⟩
  · rw [hkept]
    exact h identity hnamed
  · rcases h identity hnamed with hkept | ⟨hnone', _⟩
    · exact Or.inr ⟨hkept ▸ hnone, hnew⟩
    · exact Or.inr ⟨hnone', hnew⟩

namespace Sync

open WikiPress.Files (FileSystem)

variable {σ : Type} {runner : Runner} {publisher : Publisher σ}

/-! ## What a dry run says -/

/-- What a dry run says of a document. -/
def Runner.foresee (runner : Runner) (fs : FileSystem) (ledger : Ledger) (document : Document) :
    Outcome :=
  match runner.render fs document with
  | .error e => .failed (.render e)
  | .ok page =>
      if Settled (ledger.known document.identity) page.body (runner.pageAbove ledger document) then
        .unchanged
      else if (ledger.known document.identity).isNew then .wouldCreate
      else .wouldUpdate

theorem foresee_of_settled {fs : FileSystem} {ledger : Ledger} {document : Document}
    {page : Storage.Page} (hpage : runner.render fs document = .ok page)
    (h : Settled (ledger.known document.identity) page.body (runner.pageAbove ledger document)) :
    runner.foresee fs ledger document = .unchanged := by
  unfold Runner.foresee
  simp only [hpage, if_pos h]

theorem foresee_of_new {fs : FileSystem} {ledger : Ledger} {document : Document}
    (hreads : ∃ page, runner.render fs document = .ok page)
    (h : (ledger.known document.identity).isNew = true) :
    runner.foresee fs ledger document = .wouldCreate := by
  obtain ⟨page, hpage⟩ := hreads
  have hunsettled : ¬ Settled (ledger.known document.identity) page.body
      (runner.pageAbove ledger document) := fun hsettled => by
    rw [hsettled.published] at h
    cases h
  unfold Runner.foresee
  simp only [hpage, if_neg hunsettled, if_pos h]

theorem Takes.eq_foresee {document : Document} {p q : Progress σ} {outcome : Outcome}
    (h : Takes runner publisher document p outcome q) (hdry : runner.dryRun = true) :
    outcome = runner.foresee (publisher.files p.remote) p.ledger document
      ∧ p.ledger.Same q.ledger ∧ q.remote = p.remote := by
  unfold Runner.foresee
  cases h with
  | unreadable hpage => exact ⟨by rw [hpage], .refl _, rfl⟩
  | settled hpage _ hsettled hsame =>
      exact ⟨by rw [hpage]; exact (if_pos hsettled).symm, hsame, rfl⟩
  | foreseen hpage _ hsettled hsame =>
      exact ⟨by rw [hpage]; exact (if_neg hsettled).symm, hsame, rfl⟩
  | stranded _ hreal | refused _ hreal | accepted _ hreal => rw [hdry] at hreal; cases hreal

/-- What is said of a document is the same for ledgers that say the same. -/
theorem foresee_of_same {before after : Ledger} (h : before.Same after) (fs : FileSystem)
    (document : Document) :
    runner.foresee fs after document = runner.foresee fs before document := by
  unfold Runner.foresee Runner.pageAbove
  simp only [h.known, h.entry]

/-- A dry run says of each document what the files and the ledger at its start tell. -/
theorem foreseen_syncAll {runner : Runner} (publisher : Publisher σ) (hdry : runner.dryRun = true)
    (documents : List Document) (p : Progress σ) :
    (runner.syncAll publisher documents p).1.results
      = documents.map fun d =>
          ⟨d.identity, d.title, runner.foresee (publisher.files p.remote) p.ledger d⟩ := by
  induction documents generalizing p with
  | nil => rfl
  | cons document rest ih =>
      obtain ⟨houtcome, hsame, hremote⟩ :=
        (takes_syncDocument runner publisher document p).eq_foresee hdry
      simp only [Runner.syncAll, List.map_cons, ih, houtcome, hremote, foresee_of_same hsame]

/-! ## Publishers that take every draft -/

/-- A publisher that takes every draft. The ids it gives new pages are in no entry of the
ledger as that of the page above. -/
structure Publisher.Welcomes (publisher : Publisher σ) (ledger : Ledger) : Prop
    extends publisher.KeepsIds where
  accepts : ∀ draft remote, ∃ id, (publisher.publish draft remote).1 = .ok id
  fresh : ∀ {draft : Draft} {remote : σ} {id : String},
    (publisher.publish draft remote).1 = .ok id → draft.pageId = none →
    ∀ identity, (ledger.entry identity).parentId ≠ id

theorem Publisher.Welcomes.not_refused {ledger : Ledger} (h : publisher.Welcomes ledger)
    {draft : Draft} {remote : σ} {e : PublishError} :
    (publisher.publish draft remote).1 ≠ .error e := by
  intro hrefused
  obtain ⟨id, hok⟩ := h.accepts draft remote
  rw [hrefused] at hok
  cases hok

theorem Takes.grows {ledger : Ledger} (hpublisher : publisher.Welcomes ledger)
    {document : Document} {p q : Progress σ} {outcome : Outcome}
    (h : Takes runner publisher document p outcome q) : p.ledger.Grows ledger.Fresh q.ledger := by
  intro identity hnamed
  by_cases hown : identity = document.identity
  · subst hown
    cases h with
    | unreadable => exact Or.inl rfl
    | stranded _ _ _ hsame | settled _ _ _ hsame | foreseen _ _ _ hsame
    | refused _ _ _ _ _ hsame => exact Or.inl (congrArg Entry.id (hsame.entry _))
    | @accepted page after id remote _ _ _ _ hanswer hrenews =>
        rw [Ledger.known_of_named hnamed] at hanswer
        have hok := congrArg Prod.fst hanswer
        show (after.entry _).id = _ ∨ _ ∧ ledger.Fresh (after.entry _).id
        rw [hrenews.own hnamed]
        cases hnew : (p.ledger.entry document.identity).isNew with
        | true =>
            have hnone : (document.draft (p.ledger.entry document.identity) page.body
                (runner.pageAbove p.ledger document)).pageId = none := by
              simp [Document.draft, hnew]
            exact Or.inr ⟨by simpa [Entry.isNew] using hnew, hpublisher.named hok hnone,
              hpublisher.fresh hok hnone⟩
        | false => exact Or.inl (hpublisher.kept hok (by simp [Document.draft, hnew]))
  · exact Or.inl (congrArg Entry.id (h.entry_of_ne hown))

/-- Over a run, entries keep their ids or are given new ones. -/
theorem grows_syncAll {ledger : Ledger} (hpublisher : publisher.Welcomes ledger)
    (documents : List Document) (p : Progress σ) :
    p.ledger.Grows ledger.Fresh (runner.syncAll publisher documents p).2.ledger := by
  induction documents generalizing p with
  | nil => exact fun _ _ => Or.inl rfl
  | cons document rest ih =>
      exact ((takes_syncDocument runner publisher document p).grows hpublisher).trans (ih _)

/-! ## Documents without a page above -/

/-- Whether a document is left without a page to go below: the one above has no page, and
cannot be read or is left so itself. -/
inductive Stranded (runner : Runner) (fs : FileSystem) (ledger : Ledger)
    (documents : List Document) : Document → Prop
  | unreadable {document parent : Document} :
      parent ∈ documents → parent.identity = document.parentIdentity →
      document.parentIdentity ≠ "" → (ledger.entry document.parentIdentity).id = "" →
      ¬ runner.Reads fs parent → Stranded runner fs ledger documents document
  | further {document parent : Document} :
      parent ∈ documents → parent.identity = document.parentIdentity →
      document.parentIdentity ≠ "" → (ledger.entry document.parentIdentity).id = "" →
      Stranded runner fs ledger documents parent → Stranded runner fs ledger documents document

section RealRun

variable {documents : List Document} {start : Progress σ} {fs : FileSystem}

/-- A document has no page after a real run if it had none before, and it could not be read
or there was no page above. -/
theorem Turn.id_eq_empty_iff {document : Document} {p q : Progress σ} {outcome : Outcome}
    (h : Turn runner publisher documents start document p outcome q)
    (hpublisher : publisher.Welcomes start.ledger) (hreal : runner.dryRun = false)
    (hnamed : document.identity ≠ "")
    (hfile : runner.render fs document = runner.render (publisher.files p.remote) document) :
    ((runner.run publisher documents start).2.ledger.entry document.identity).id = ""
      ↔ (start.ledger.entry document.identity).id = "" ∧ (¬ runner.Reads fs document
        ∨ ¬ Anchored (runner.run publisher documents start).2.ledger document) := by
  rw [h.final, h.anchored_iff, ← h.own]
  have hknown : p.ledger.known document.identity = p.ledger.entry document.identity :=
    Ledger.known_of_named hnamed
  unfold Runner.Reads
  rw [hfile]
  cases h.takes with
  | unreadable hpage => simp [hpage]
  | stranded hpage _ hstranded hsame => simp [hsame.entry, hstranded]
  | @settled _ ledger _ _ hsettled hsame =>
      -- a page that is settled has an id
      have hid : (p.ledger.entry document.identity).id ≠ "" := by
        simpa [hknown, Entry.isNew] using hsettled.published
      exact iff_of_false (by rw [hsame.entry]; exact hid) (fun hnone => hid hnone.1)
  | foreseen _ hdry => rw [hreal] at hdry; cases hdry
  | refused _ _ _ _ hanswer => exact (hpublisher.not_refused (congrArg Prod.fst hanswer)).elim
  | @accepted page ledger id remote hpage _ hanchored _ hanswer hrenews =>
      have hid := Takes.id_ne_of_accepted hpublisher.toKeepsIds hanswer
      refine iff_of_false ?_ ?_
      · rw [hrenews.own hnamed]
        exact hid
      · rintro ⟨_, hunread | hstranded⟩
        · exact hunread ⟨page, hpage⟩
        · exact hstranded hanchored

/-- There is no page above a document in a real run if it is stranded. -/
theorem not_anchored_iff_stranded (h : Hierarchy documents)
    (hpublisher : publisher.Welcomes start.ledger) (hreal : runner.dryRun = false)
    (hfiles : runner.ReadsAs publisher documents start fs) {document : Document}
    (hmem : document ∈ documents) :
    ¬ Anchored (runner.run publisher documents start).2.ledger document
      ↔ Stranded runner fs start.ledger documents document := by
  have hpage : ∀ {document parent : Document}, parent ∈ documents →
      parent.identity = document.parentIdentity → document.parentIdentity ≠ "" →
      (((runner.run publisher documents start).2.ledger.entry document.parentIdentity).id = ""
        ↔ (start.ledger.entry document.parentIdentity).id = "" ∧ (¬ runner.Reads fs parent
          ∨ ¬ Anchored (runner.run publisher documents start).2.ledger parent)) := by
    intro document parent hparent hidentity habove
    obtain ⟨taken, rest, outcome, q, hsplit, hturn⟩ := exists_turn runner publisher h hparent start
    rw [← hidentity] at habove ⊢
    exact hturn.id_eq_empty_iff hpublisher hreal habove (hfiles hsplit)
  -- from level to level, down the tree
  have hall : ∀ document ∈ documents,
      ¬ Anchored (runner.run publisher documents start).2.ledger document →
        Stranded runner fs start.ledger documents document := by
    refine h.induct fun document _ ih hstranded => ?_
    obtain ⟨habove, hnone⟩ := not_anchored_iff.1 hstranded
    obtain ⟨parent, hparent, hidentity, ih⟩ := ih habove
    obtain ⟨hstart, hunread | hunanchored⟩ := (hpage hparent hidentity habove).1 hnone
    · exact .unreadable hparent hidentity habove hstart hunread
    · exact .further hparent hidentity habove hstart (ih hunanchored)
  constructor
  · exact hall document hmem
  · intro hstranded
    induction hstranded with
    | unreadable hparent hidentity habove hstart hunread =>
        exact not_anchored_iff.2
          ⟨habove, (hpage hparent hidentity habove).2 ⟨hstart, Or.inl hunread⟩⟩
    | further hparent hidentity habove hstart _ ih =>
        exact not_anchored_iff.2
          ⟨habove, (hpage hparent hidentity habove).2 ⟨hstart, Or.inr (ih hparent)⟩⟩

/-- The page above a document is the one it had at the start of the run, or it has a new
id. -/
theorem pageAbove_of_grows (runner : Runner) {document : Document} {before after : Ledger}
    {new : String → Prop} (h : before.Grows new after) (hanchored : Anchored after document) :
    runner.pageAbove after document = runner.pageAbove before document
      ∨ ¬ Anchored before document ∧ new (runner.pageAbove after document) := by
  unfold Runner.pageAbove
  rcases hanchored with htop | hpage
  · simp [htop]
  · by_cases htop : document.parentIdentity = ""
    · simp [htop]
    · rw [if_neg htop, if_neg htop, not_anchored_iff]
      exact (h document.parentIdentity htop).imp_right fun ⟨hnone, hnew⟩ => ⟨⟨htop, hnone⟩, hnew⟩

end RealRun

/-! ## The forecast -/

/-- What a dry run says where a real run does something. -/
inductive Foretells : Outcome → Outcome → Prop
  | unchanged : Foretells .unchanged .unchanged
  | create : Foretells .wouldCreate .created
  | update : Foretells .wouldUpdate .updated
  | failed (reason : Failure) : Foretells (.failed reason) (.failed reason)

/-- Whether a document looks unchanged only because the page above it is yet to be made: it
was published below none. -/
def Overlooked (runner : Runner) (fs : FileSystem) (ledger : Ledger) (document : Document) :
    Prop :=
  ∃ page, runner.render fs document = .ok page ∧ ¬ Anchored ledger document
    ∧ Settled (ledger.known document.identity) page.body ""

theorem pageAbove_of_not_anchored {ledger : Ledger} {document : Document}
    (h : ¬ Anchored ledger document) : runner.pageAbove ledger document = "" := by
  obtain ⟨habove, hnone⟩ := not_anchored_iff.1 h
  rw [Runner.pageAbove, if_neg habove, hnone]

section Turns

variable {documents : List Document} {start p q : Progress σ} {fs : FileSystem}
  {document : Document} {outcome : Outcome}

/-- A document that is not overlooked is settled in its turn if it is at the start. -/
theorem Turn.settled_iff (h : Turn runner publisher documents start document p outcome q)
    (hgrows : start.ledger.Grows start.ledger.Fresh p.ledger)
    (hanchored : Anchored p.ledger document) {page : Storage.Page}
    (hpage : runner.render fs document = .ok page)
    (hseen : ¬ Overlooked runner fs start.ledger document) :
    Settled (p.ledger.known document.identity) page.body (runner.pageAbove p.ledger document)
      ↔ Settled (start.ledger.known document.identity) page.body
        (runner.pageAbove start.ledger document) := by
  rw [h.known_eq]
  rcases pageAbove_of_grows runner hgrows hanchored with heq | ⟨hnone, _, hfresh⟩
  · rw [heq]
  · refine iff_of_false (fun hsettled => ?_) (fun hsettled => ?_)
    -- no entry is below a page that is new
    · have hparentId := hsettled.parentId
      have hpublished := hsettled.published
      unfold Ledger.known at hparentId hpublished
      split at hpublished
      · cases hpublished
      · next hnamed =>
          rw [if_neg hnamed] at hparentId
          exact hfresh _ hparentId
    · rw [pageAbove_of_not_anchored hnone] at hsettled
      exact hseen ⟨page, hpage, hnone, hsettled⟩

/-- What a dry run says of a document is what a real run does, unless the document is
overlooked or there is no page to go below. -/
theorem Turn.foretold (h : Turn runner publisher documents start document p outcome q)
    (hpublisher : publisher.Welcomes start.ledger) (hreal : runner.dryRun = false)
    (hgrows : start.ledger.Grows start.ledger.Fresh p.ledger)
    (hfile : runner.render fs document = runner.render (publisher.files p.remote) document)
    (hplace : runner.Reads fs document → Anchored p.ledger document)
    (hseen : ¬ Overlooked runner fs start.ledger document) :
    Foretells (runner.foresee fs start.ledger document) outcome := by
  unfold Runner.foresee
  cases h.takes with
  | unreadable hpage =>
      rw [hfile, hpage]
      exact .failed _
  | stranded hpage _ hstranded => exact absurd (hplace ⟨_, hfile.trans hpage⟩) hstranded
  | settled hpage hanchored hsettled =>
      have hthere := hanchored.resolve_left (by simp [hreal])
      rw [h.settled_iff hgrows hthere (hfile.trans hpage) hseen] at hsettled
      simp only [hfile.trans hpage, if_pos hsettled]
      exact .unchanged
  | foreseen _ hdry => rw [hreal] at hdry; cases hdry
  | refused _ _ _ _ hanswer => exact (hpublisher.not_refused (congrArg Prod.fst hanswer)).elim
  | accepted hpage _ hanchored hsettled =>
      rw [h.settled_iff hgrows hanchored (hfile.trans hpage) hseen] at hsettled
      simp only [hfile.trans hpage, if_neg hsettled, h.known_eq]
      split
      · exact .create
      · exact .update

/-- A document that can be read fails in a real run if there is no page to go below. A dry
run does not say so. -/
theorem Turn.stranded (h : Turn runner publisher documents start document p outcome q)
    (hfile : runner.render fs document = runner.render (publisher.files p.remote) document)
    (hreads : runner.Reads fs document) (hreal : runner.dryRun = false)
    (hstranded : ¬ Anchored p.ledger document) :
    outcome = .failed (.missingParent document.parentIdentity) := by
  obtain ⟨page, hpage⟩ := hreads
  cases h.takes with
  | unreadable hunread =>
      rw [hfile, hunread] at hpage
      cases hpage
  | stranded => rfl
  | settled _ hanchored => exact absurd (hanchored.resolve_left (by simp [hreal])) hstranded
  | foreseen _ hdry => rw [hreal] at hdry; cases hdry
  | refused _ _ hanchored | accepted _ _ hanchored => exact absurd hanchored hstranded

end Turns

/-- A dry run reports no failure of a document that can be read. -/
theorem foresee_not_failure {fs : FileSystem} {ledger : Ledger} {document : Document}
    (h : runner.Reads fs document) : (runner.foresee fs ledger document).isFailure = false := by
  obtain ⟨page, hpage⟩ := h
  unfold Runner.foresee
  simp only [hpage]
  split
  · rfl
  · split <;> rfl

/-- Where there is no page above, a dry run calls a document unchanged only if it overlooks
it. -/
theorem overlooked_of_foresee {fs : FileSystem} {ledger : Ledger} {document : Document}
    (h : runner.foresee fs ledger document = .unchanged) (hnone : ¬ Anchored ledger document) :
    Overlooked runner fs ledger document := by
  unfold Runner.foresee at h
  split at h
  · cases h
  · next page hpage =>
      split at h
      · next hsettled =>
          rw [pageAbove_of_not_anchored hnone] at hsettled
          exact ⟨page, hpage, hnone, hsettled⟩
      · split at h <;> cases h

theorem Foretells.unchanged_iff {foreseen actual : Outcome} (h : Foretells foreseen actual) :
    foreseen = .unchanged ↔ actual = .unchanged := by
  cases h <;> simp

theorem Stranded.not_anchored {fs : FileSystem} {ledger : Ledger} {documents : List Document}
    {document : Document} (h : Stranded runner fs ledger documents document) :
    ¬ Anchored ledger document := by
  cases h with
  | unreadable _ _ habove hnone | further _ _ habove hnone =>
      exact not_anchored_iff.2 ⟨habove, hnone⟩

theorem Report.identities_pending {report : Report} {documents : List Document}
    {outcome : Document → Outcome}
    (h : report.results = documents.map fun d => ⟨d.identity, d.title, outcome d⟩) :
    report.pending.map (·.identity)
      = (documents.filter fun d => outcome d != .unchanged).map (·.identity) := by
  rw [Report.pending, h, List.filter_map, List.map_map]
  rfl

/-- What is said of a document in both runs. -/
theorem agree_of_mem {documents : List Document} {start : Progress σ} {fs : FileSystem}
    (h : Hierarchy documents) (hpublisher : publisher.Welcomes start.ledger)
    (hreal : runner.dryRun = false) (hfiles : runner.ReadsAs publisher documents start fs)
    {document : Document} (hmem : document ∈ documents) :
    let actual := ((runner.run publisher documents start).1.outcome? document.identity).getD
      .unchanged
    (runner.Reads fs document → Stranded runner fs start.ledger documents document →
      (runner.foresee fs start.ledger document).isFailure = false
        ∧ actual = .failed (.missingParent document.parentIdentity))
    ∧ (¬ (runner.Reads fs document ∧ Stranded runner fs start.ledger documents document) →
      ¬ Overlooked runner fs start.ledger document →
      Foretells (runner.foresee fs start.ledger document) actual) := by
  intro actual
  obtain ⟨taken, rest, outcome, q, hsplit, hturn⟩ := exists_turn runner publisher h hmem start
  have hactual : actual = outcome := by simp only [actual, hturn.reported, Option.getD_some]
  have hfile := hfiles hsplit
  have hplace := not_anchored_iff_stranded h hpublisher hreal hfiles hmem
  rw [hturn.anchored_iff] at hplace
  rw [hactual]
  refine ⟨fun hreads hstranded => ⟨foresee_not_failure hreads,
    hturn.stranded hfile hreads hreal (hplace.2 hstranded)⟩, fun hplaced hseen => ?_⟩
  refine hturn.foretold hpublisher hreal (grows_syncAll hpublisher taken start) hfile
    (fun hreads => ?_) hseen
  by_contra hnone
  exact hplaced ⟨hreads, hplace.1 hnone⟩

/-- Whether a dry run and a real run agree document by document. -/
def Agree (dry real : Report) : Prop :=
  List.Forall₂ (fun foreseen actual => foreseen.identity = actual.identity
    ∧ foreseen.title = actual.title ∧ Foretells foreseen.outcome actual.outcome)
    dry.results real.results

/-- What the report of a dry run tells about that of a real run. -/
structure Forecast (runner : Runner) (fs : FileSystem) (ledger : Ledger)
    (documents : List Document) (dry real : Report) : Prop where
  /-- Both have one outcome for each document, in the same order. A document that can be
  read and is stranded fails in the real run only. Any other that is not overlooked has the
  outcome that was foretold. -/
  outcomes : ∃ foreseen actual : Document → Outcome,
    dry.results = (inOrder documents).map (fun d => ⟨d.identity, d.title, foreseen d⟩)
    ∧ real.results = (inOrder documents).map (fun d => ⟨d.identity, d.title, actual d⟩)
    ∧ ∀ document ∈ documents,
      (runner.Reads fs document → Stranded runner fs ledger documents document →
        (foreseen document).isFailure = false
          ∧ actual document = .failed (.missingParent document.parentIdentity))
      ∧ (¬ (runner.Reads fs document ∧ Stranded runner fs ledger documents document) →
        ¬ Overlooked runner fs ledger document →
        Foretells (foreseen document) (actual document))
  /-- If none is overlooked, the same documents are pending. -/
  pending : (∀ document ∈ documents, ¬ Overlooked runner fs ledger document) →
    dry.pending.map (·.identity) = real.pending.map (·.identity)
  /-- If none that can be read is stranded either, the reports agree. -/
  agree : (∀ document ∈ documents, ¬ Overlooked runner fs ledger document
      ∧ ¬ (runner.Reads fs document ∧ Stranded runner fs ledger documents document)) →
    Agree dry real

/-- **A dry run tells what a real run does**, for every list of documents that was scanned,
every ledger and every publisher that takes all drafts. -/
theorem dry_run_foretells_run {scanner : Scanner} {scanned : FileSystem}
    {documents : List Document} (hscan : scanner.scan scanned = .ok documents)
    (hdistinct : (documents.map Document.identity).Nodup) {publisher : Publisher σ}
    {start : Progress σ} (hpublisher : publisher.Welcomes start.ledger) {runner : Runner}
    (hreal : runner.dryRun = false)
    (hfiles : runner.ReadsAs publisher documents start (publisher.files start.remote)) :
    Forecast runner (publisher.files start.remote) start.ledger documents
      ({ runner with dryRun := true }.run publisher documents start).1
      (runner.run publisher documents start).1 := by
  have h : Hierarchy documents := hierarchy_of_scan hscan hdistinct
  generalize hdryRun : ({ runner with dryRun := true }.run publisher documents start).1 = dry
  generalize hrealRun : (runner.run publisher documents start).1 = real
  have hdry : dry.results = (inOrder documents).map fun d => ⟨d.identity, d.title,
      runner.foresee (publisher.files start.remote) start.ledger d⟩ :=
    hdryRun ▸ foreseen_syncAll publisher rfl (inOrder documents) start
  have hresults : real.results = (inOrder documents).map fun d => ⟨d.identity, d.title,
      (real.outcome? d.identity).getD .unchanged⟩ :=
    hrealRun ▸ Report.results_eq (results_syncAll runner publisher (inOrder documents) start)
      h.distinct_inOrder .unchanged
  have hagree := fun document (hmem : document ∈ documents) =>
    agree_of_mem h hpublisher hreal hfiles hmem
  simp only [hrealRun] at hagree
  refine ⟨⟨_, _, hdry, hresults, hagree⟩, fun hseen => ?_, fun hclear => ?_⟩
  · rw [Report.identities_pending hdry, Report.identities_pending hresults]
    refine congrArg _ (List.filter_congr fun document hordered => ?_)
    have hmem := mem_inOrder.1 hordered
    obtain ⟨hstranded, hforetold⟩ := hagree document hmem
    rw [Bool.eq_iff_iff, bne_iff_ne, bne_iff_ne, not_iff_not]
    by_cases hleft : runner.Reads (publisher.files start.remote) document
        ∧ Stranded runner (publisher.files start.remote) start.ledger documents document
    -- it is pending in both runs, for different reasons
    · rw [(hstranded hleft.1 hleft.2).2]
      refine iff_of_false (fun hunchanged => ?_) (by simp)
      exact hseen document hmem (overlooked_of_foresee hunchanged hleft.2.not_anchored)
    · exact (hforetold hleft (hseen document hmem)).unchanged_iff
  · rw [Agree, hdry, hresults, List.forall₂_map_left_iff, List.forall₂_map_right_iff,
      List.forall₂_same]
    intro document hordered
    have hmem := mem_inOrder.1 hordered
    obtain ⟨hseen, hplaced⟩ := hclear document hmem
    exact ⟨rfl, rfl, (hagree document hmem).2 hplaced hseen⟩

/-! ## Directories to try runs with -/

/-- The index of a source directory without an index file. -/
def home : Document where
  source := .virtual
  identity := "index.md"
  title := "docs"
  isIndex := true
  parentTitle := ""
  parentIdentity := ""
  level := 0
  attachments := []

/-- The index of a directory in it, without an index file either. -/
def guide : Document where
  source := .virtual
  identity := "guide/index.md"
  title := "guide"
  isIndex := true
  parentTitle := "docs"
  parentIdentity := "index.md"
  level := 1
  attachments := []

/-- The source directory of these two. -/
def nested : FileSystem := docs [("guide", .directory [])]

theorem scan_nested :
    Scanner.scan { sourceDirectory := "docs" } nested = .ok [home, guide] := by
  have h : Scanner.documentsOf { sourceDirectory := "docs" }
      (Scanner.rootFolder { sourceDirectory := "docs" }) (.directory [("guide", .directory [])])
      = [home, guide] := by decide +kernel
  rw [nested, scan_docs rfl rfl, h, inOrder_of_pairwise (by decide)]

/-- A source directory whose index file is a link that leads nowhere. -/
def severed : FileSystem := docs [("guide", .directory []), ("index.md", .link "gone")]

/-- Its index. -/
def severedHome : Document := { home with source := .file "docs/index.md" }

theorem scan_severed :
    Scanner.scan { sourceDirectory := "docs" } severed = .ok [severedHome, guide] := by
  have h : Scanner.documentsOf { sourceDirectory := "docs" }
      (Scanner.rootFolder { sourceDirectory := "docs" })
      (.directory [("guide", .directory []), ("index.md", .link "gone")])
      = [severedHome, guide] := by decide +kernel
  rw [severed, scan_docs rfl rfl, h, inOrder_of_pairwise (by decide)]

theorem render_severedHome (runner : Runner) :
    runner.render severed severedHome = .error ⟨"docs/index.md", .noSuchFile⟩ := by
  have hsteps : Files.stepsOf "docs/index.md" = [.into "docs", .into "index.md"] := by decide
  have hgone : Files.stepsOf "gone" ++ [] = [.into "gone"] := by decide
  have hwalk : severed.walkFrom "docs/index.md" true [.into "docs", .into "index.md"]
      = .ok (.vacant ["docs"] "gone") := by
    unfold FileSystem.walkFrom
    rw [if_neg (by decide), if_neg (by decide), if_neg (by decide)]
    simp only [severed, docs, Files.Node.at?, List.reverse_nil]
    rw [Files.walk, if_neg (by decide)]
    simp only [Keyed.find?, if_true]
    rw [Files.walk, if_neg (by decide)]
    show Files.walk _ true 39 ["docs"] _ (Files.stepsOf "gone" ++ []) = _
    rw [hgone, Files.walk, if_neg (by decide)]
    rfl
  have hread : severed.readText "docs/index.md" = .error .noSuchFile := by
    simp only [FileSystem.readText, FileSystem.read, FileSystem.node, FileSystem.find, hsteps,
      hwalk, bind, Except.bind]
  simp only [Runner.render, severedHome, Storage.renderFile, hread]

theorem refusing_welcomes (files : FileSystem) {ledger : Ledger}
    (h : ∀ identity other, (ledger.entry identity).parentId ≠ "id-" ++ other) :
    (refusing files []).Welcomes ledger where
  toKeepsIds := refusing_keepsIds files []
  accepts draft _ := ⟨draft.pageId.getD ("id-" ++ draft.identity), by simp [refusing]⟩
  fresh hok hnone identity := by
    simp only [refusing, List.not_mem_nil, if_false, hnone, Option.getD_none] at hok
    cases hok
    exact h identity _

/-- The start of a first run. -/
def anew : Progress Unit := ⟨{ path := "state.json" }, ()⟩

theorem refusing_welcomes_anew (files : FileSystem) : (refusing files []).Welcomes anew.ledger :=
  refusing_welcomes files fun _ _ => by simp [Ledger.entry, anew]

/-- A dry run and a real run over the directory whose index cannot be read. -/
theorem dry_run_foretells_run_severed :
    let publisher := refusing severed []
    let documents := [severedHome, guide]
    Scanner.scan { sourceDirectory := "docs" } severed = .ok documents
    ∧ (documents.map Document.identity).Nodup ∧ publisher.Welcomes anew.ledger
    ∧ Runner.ReadsAs {} publisher documents anew (publisher.files anew.remote)
    ∧ Forecast {} (publisher.files anew.remote) anew.ledger documents
      (Runner.run { dryRun := true } publisher documents anew).1
      (Runner.run {} publisher documents anew).1 := by
  intro publisher documents
  have hdistinct : (documents.map Document.identity).Nodup := by decide
  have hpublisher : publisher.Welcomes anew.ledger := refusing_welcomes_anew severed
  have hfiles : Runner.ReadsAs {} publisher documents anew (publisher.files anew.remote) :=
    fun _ => rfl
  exact ⟨scan_severed, hdistinct, hpublisher, hfiles,
    dry_run_foretells_run scan_severed hdistinct hpublisher rfl hfiles⟩

/-! ## Where a dry run is wrong -/

/-- Whether a dry run over the documents of a scan agrees with the real run. -/
def Told (scanner : Scanner) (publisher : Publisher σ) (start : Progress σ) : Prop :=
  ∀ documents, scanner.scan (publisher.files start.remote) = .ok documents →
    Agree (Runner.run { dryRun := true } publisher documents start).1
      (Runner.run {} publisher documents start).1

/-- Where the runs agree, what is said of a document foretells its turn in the real run. -/
theorem Told.foretells {scanner : Scanner} {start : Progress σ} (h : Told scanner publisher start)
    {documents : List Document}
    (hscan : scanner.scan (publisher.files start.remote) = .ok documents)
    (taken : List Document) (document : Document) (rest : List Document)
    (hsplit : inOrder documents = taken ++ document :: rest) :
    Foretells (Runner.foresee {} (publisher.files start.remote) start.ledger document)
      (Runner.syncDocument {} publisher document
        (Runner.syncAll {} publisher taken start).2).1 := by
  have hdry : (Runner.syncAll { dryRun := true } publisher (inOrder documents) start).1.results
      = (inOrder documents).map fun d => ⟨d.identity, d.title,
        Runner.foresee {} (publisher.files start.remote) start.ledger d⟩ :=
    foreseen_syncAll publisher rfl (inOrder documents) start
  have hreal := (syncAll_append {} publisher taken (document :: rest) start).1
  have htaken : (Runner.syncAll {} publisher taken start).1.results.length = taken.length := by
    simpa using congrArg List.length (results_syncAll {} publisher taken start)
  have hagree := h documents hscan
  unfold Agree Runner.run at hagree
  rw [hdry, hsplit, hreal, List.map_append, List.map_cons] at hagree
  -- as many documents come before in both reports
  have hrest := List.forall₂_drop_append _ _ _ hagree
  rw [List.drop_left' (by rw [List.length_map, htaken])] at hrest
  cases hrest with
  | cons hfirst _ => exact hfirst.2.2

/-- A document that would not be below the page its entry says is not left alone. -/
theorem not_unchanged_of_moved {document : Document} {p : Progress σ}
    (hmoved : (p.ledger.known document.identity).parentId ≠ runner.pageAbove p.ledger document) :
    (runner.syncDocument publisher document p).1 ≠ .unchanged := by
  intro hunchanged
  have htakes := takes_syncDocument runner publisher document p
  simp only [hunchanged] at htakes
  generalize (runner.syncDocument publisher document p).2.2 = q at htakes
  generalize houtcome : Outcome.unchanged = outcome at htakes
  cases htakes with
  | settled _ _ hsettled => exact hmoved hsettled.parentId
  | unreadable | stranded | refused => cases houtcome
  | foreseen | accepted => split at houtcome <;> cases houtcome

/-- A dry run that calls such a document unchanged is wrong. -/
theorem not_told_of_moved {scanner : Scanner} {start : Progress σ} {documents : List Document}
    (hscan : scanner.scan (publisher.files start.remote) = .ok documents)
    (taken : List Document) (document : Document) (rest : List Document)
    (hsplit : inOrder documents = taken ++ document :: rest)
    (hunchanged : Runner.foresee {} (publisher.files start.remote) start.ledger document
      = .unchanged)
    {p : Progress σ} (hp : (Runner.syncAll {} publisher taken start).2 = p)
    (hmoved : (p.ledger.known document.identity).parentId
      ≠ Runner.pageAbove {} p.ledger document) :
    ¬ Told scanner publisher start := by
  intro htold
  have hforetold := htold.foretells hscan taken document rest hsplit
  rw [hunchanged, hp] at hforetold
  exact not_unchanged_of_moved hmoved (hforetold.unchanged_iff.1 rfl)

/-- A page below one that cannot be read is not created, though a dry run says so. -/
theorem not_told_below_unreadable :
    ¬ Told { sourceDirectory := "docs" } (refusing severed []) anew := by
  intro htold
  have hguide := htold.foretells scan_severed [severedHome] guide []
    (inOrder_of_pairwise (by decide))
  have hhome : (Runner.syncAll {} (refusing severed []) [severedHome] anew).2 = anew := by
    simp only [Runner.syncAll, Runner.syncDocument, refusing, render_severedHome]
  have hreal : (Runner.syncDocument {} (refusing severed []) guide anew).1
      = .failed (.missingParent "index.md") := by
    decide +kernel
  rw [foresee_of_new ⟨_, rfl⟩ rfl, hhome, hreal] at hguide
  cases hguide

/-- The body of the page of a directory without an index file. -/
def guideBody : String := (Storage.renderMarkdown {} guide.context "").body

/-- The start of a run whose ledger knows one page, which was published below none. -/
def adrift : Progress Unit :=
  ⟨{ path := "state.json",
     entries := [("guide/index.md", { id := "7", hash := Digest.ofText guideBody })] }, ()⟩

theorem refusing_welcomes_adrift (files : FileSystem) :
    (refusing files []).Welcomes adrift.ledger := by
  refine refusing_welcomes files fun identity other => ?_
  simp only [adrift, Ledger.entry, Keyed.find?]
  split <;> simp

/-- Such a page is moved once there is a page above, though a dry run calls it unchanged. -/
theorem not_told_of_overlooked :
    ¬ Told { sourceDirectory := "docs" } (refusing nested []) adrift :=
  not_told_of_moved scan_nested [home] guide [] (inOrder_of_pairwise (by decide))
    (foresee_of_settled rfl ⟨rfl, rfl, rfl⟩) rfl (by decide +kernel)

/-- A publisher that gives all pages one id. -/
def reassigning (files : FileSystem) (id : String) : Publisher Unit where
  files _ := files
  publish _ _ := (.ok id, ())

/-- The start of a run whose ledger knows two pages, one below the other. -/
def adopted : Progress Unit :=
  ⟨{ path := "state.json",
     entries := [
       ("guide/index.md", { id := "2", hash := Digest.ofText guideBody, parentId := "1" }),
       ("index.md", { id := "1", parentId := "0" })] }, ()⟩

/-- A page is moved if the page above is given another id, though a dry run calls it
unchanged. -/
theorem not_told_of_reassigned :
    ¬ Told { sourceDirectory := "docs" } (reassigning nested "9") adopted := by
  refine not_told_of_moved scan_nested [home] guide []
    (inOrder_of_pairwise (by decide)) (foresee_of_settled rfl ⟨rfl, rfl, rfl⟩)
    (syncAll_singleton _ _ _ _) ?_
  have htakes := takes_syncDocument {} (reassigning nested "9") home adopted
  generalize Runner.syncDocument {} (reassigning nested "9") home adopted = step at htakes ⊢
  obtain ⟨outcome, missing, q⟩ := step
  change Takes {} (reassigning nested "9") home adopted outcome q at htakes
  -- the page above was given the other id, and the entry of the page below is as it was
  have hbelow : q.ledger.entry guide.identity = adopted.ledger.entry guide.identity :=
    htakes.entry_of_ne (by decide)
  have habove : (q.ledger.entry home.identity).id = "9" := by
    cases htakes with
    | unreadable hpage => cases hpage
    | stranded _ _ hstranded => exact absurd (Or.inl rfl) hstranded
    | settled _ _ hsettled => exact absurd hsettled.parentId (by decide)
    | foreseen _ hdry => cases hdry
    | refused _ _ _ _ hanswer => cases hanswer
    | accepted _ _ _ _ hanswer hrenews =>
        cases hanswer
        exact congrArg Entry.id (hrenews.own (by decide))
  rw [Ledger.known_of_named (by decide)]
  simp only
  rw [hbelow, Runner.pageAbove, if_neg (by decide)]
  exact habove ▸ by decide

/-- A document that is known is not created. -/
theorem not_created_of_known (runner : Runner) (publisher : Publisher σ) (document : Document)
    (p : Progress σ) (h : (p.ledger.known document.identity).isNew = false) :
    (runner.syncDocument publisher document p).1 ≠ .created := by
  intro hcreated
  have htakes := takes_syncDocument runner publisher document p
  simp only [hcreated] at htakes
  generalize (runner.syncDocument publisher document p).2.2 = q at htakes
  generalize houtcome : Outcome.created = outcome at htakes
  cases htakes with
  | settled | unreadable | stranded | refused => cases houtcome
  | foreseen => split at houtcome <;> cases houtcome
  | accepted =>
      rw [if_neg (by simp [h])] at houtcome
      cases houtcome

/-- A source directory with a page that is named as the index is, if that is `b/a.md`. -/
def crossed : FileSystem := docs [("b", .directory [("a.md", .file .empty)])]

/-- The documents of that directory: its index, the index of the directory in it, and the
page. -/
def crossedDocuments : List Document :=
  [{ home with identity := "b/a.md" },
    { guide with identity := "b/b/a.md", title := "b", parentIdentity := "b/a.md" },
    { source := .file "docs/b/a.md", identity := "b/a.md", title := "a", isIndex := false,
      parentTitle := "b", parentIdentity := "b/b/a.md", level := 2, attachments := [] }]

theorem scan_crossed :
    Scanner.scan { sourceDirectory := "docs", indexName := "b/a.md" } crossed
      = .ok crossedDocuments := by
  have h : Scanner.documentsOf { sourceDirectory := "docs", indexName := "b/a.md" }
      (Scanner.rootFolder { sourceDirectory := "docs", indexName := "b/a.md" })
      (.directory [("b", .directory [("a.md", .file .empty)])])
      = [crossedDocuments[0], crossedDocuments[2], crossedDocuments[1]] := by decide +kernel
  have horder : inOrder [crossedDocuments[0], crossedDocuments[2], crossedDocuments[1]]
      = crossedDocuments := inOrder_of_perm (by decide) (by decide) (by decide)
  rw [crossed, scan_docs rfl rfl, h, horder]

/-- A page that shares its name with another is taken for that one, though a dry run says
that both would be created. -/
theorem not_told_of_shared_identity :
    ¬ Told { sourceDirectory := "docs", indexName := "b/a.md" } (refusing crossed []) anew := by
  intro htold
  have hpage := htold.foretells scan_crossed (crossedDocuments.take 2) crossedDocuments[2] []
    (inOrder_of_pairwise (by decide))
  have hnode : crossed.node "docs/b/a.md" = .ok (.file .empty) :=
    Files.node_of_names ["docs", "b", "a.md"] ⟨by decide, by decide⟩ (by decide) rfl
      (by decide) rfl (by simp)
  have hread : crossed.readText "docs/b/a.md" = .ok "" := by
    simp only [FileSystem.readText, FileSystem.read, hnode, bind, Except.bind]
    decide +kernel
  have hforesee : Runner.foresee {} crossed anew.ledger crossedDocuments[2] = .wouldCreate :=
    foresee_of_new ⟨_, by simp only [Runner.render, crossedDocuments, List.getElem_cons_succ,
      List.getElem_cons_zero, Storage.renderFile, hread]; rfl⟩ rfl
  have hnot := not_created_of_known {} (refusing crossed []) crossedDocuments[2]
    (Runner.syncAll {} (refusing crossed []) (crossedDocuments.take 2) anew).2 (by decide +kernel)
  generalize (Runner.syncDocument {} (refusing crossed []) crossedDocuments[2] _).1 = actual
    at hpage hnot
  rw [show (refusing crossed []).files anew.remote = crossed from rfl, hforesee] at hpage
  cases hpage
  exact hnot rfl

/-- The reports of a dry run and of a real run differ below a page that cannot be read, for
a page that is overlooked, for pages that share a name, and where a page is given another
id. -/
theorem not_told :
    ((refusing severed []).Welcomes anew.ledger
      ∧ ¬ Told { sourceDirectory := "docs" } (refusing severed []) anew)
    ∧ ((refusing nested []).Welcomes adrift.ledger
      ∧ ¬ Told { sourceDirectory := "docs" } (refusing nested []) adrift)
    ∧ ((refusing crossed []).Welcomes anew.ledger
      ∧ ¬ Told { sourceDirectory := "docs", indexName := "b/a.md" } (refusing crossed []) anew)
    ∧ (∀ draft remote, ∃ id, ((reassigning nested "9").publish draft remote).1 = .ok id)
      ∧ ¬ Told { sourceDirectory := "docs" } (reassigning nested "9") adopted :=
  ⟨⟨refusing_welcomes_anew severed, not_told_below_unreadable⟩,
    ⟨refusing_welcomes_adrift nested, not_told_of_overlooked⟩,
    ⟨refusing_welcomes_anew crossed, not_told_of_shared_identity⟩,
    fun _ _ => ⟨"9", rfl⟩, not_told_of_reassigned⟩

end Sync

end WikiPress
