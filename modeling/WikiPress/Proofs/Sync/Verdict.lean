import WikiPress.Proofs.Sync.Hierarchy

/-!
# WikiPress.Proofs.Sync.Verdict

What a run makes of its documents, whatever the order of their turns.

Design points:

* With a publisher without a memory, what becomes of a document is a function of its own entry
  and of the page above (`Runner.verdict`).
* A document behind the one above it finds the page above as it is at the end. So the ledger
  at the end of a run solves one equation for each document, in which the order of the turns
  does not occur (`Concludes`, `concludes_syncAll`).
* Two solutions agree on every document for which the equations do, by induction on the
  level (`Concludes.sameAbove`).
* A ledger may have entries that say nothing. Which ones are made depends on what documents
  ask for (`Runner.Asks`), so that solutions agree in these as well.
-/

namespace WikiPress.Sync

open WikiPress.Files (FileSystem)

variable {σ : Type} {runner : Runner} {publisher : Publisher σ}
  {answer : Draft → Except PublishError String}

/-! ## The verdict on a document -/

/-- What becomes of a document and of its entry, given the page above as a ledger has it. -/
def Runner.verdict (runner : Runner) (answer : Draft → Except PublishError String)
    (fs : FileSystem) (ledger : Ledger) (document : Document) (own : Entry) : Outcome × Entry :=
  match runner.render fs document with
  | .error e => (.failed (.render e), own)
  | .ok page =>
      if runner.dryRun = false ∧ ¬ Anchored ledger document then
        (.failed (.missingParent document.parentIdentity), own)
      else
        let parentId := runner.pageAbove ledger document
        if Settled own page.body parentId then (.unchanged, own)
        else if runner.dryRun then (if own.isNew then .wouldCreate else .wouldUpdate, own)
        else
          match answer (document.draft own page.body parentId) with
          | .error e => (.failed (.publish e), own)
          | .ok id => (if own.isNew then .created else .updated,
              { id, hash := Digest.ofText page.body, parentId })

/-- A turn goes by the verdict on its document. -/
theorem Takes.eq_verdict (hpublisher : publisher.Steady answer) {document : Document}
    {p q : Progress σ} {outcome : Outcome}
    (h : Takes runner publisher document p outcome q) (hnamed : document.identity ≠ "") :
    runner.verdict answer (publisher.files p.remote) p.ledger document
        (p.ledger.entry document.identity)
      = (outcome, q.ledger.entry document.identity) := by
  unfold Runner.verdict
  have hknown : p.ledger.known document.identity = p.ledger.entry document.identity :=
    Ledger.known_of_named hnamed
  cases h with
  | unreadable hpage => rw [hpage]
  | stranded hpage hreal hstranded hsame =>
      simp only [hpage, hreal, hstranded, not_false_eq_true, and_self, if_true, hsame.entry]
  | settled hpage hanchored hsettled hsame =>
      rw [hknown] at hsettled
      have hplaced : ¬ (runner.dryRun = false ∧ ¬ Anchored p.ledger document) := by
        rintro ⟨hreal, hstranded⟩
        exact hstranded (hanchored.resolve_left (by simp [hreal]))
      simp only [hpage, if_neg hplaced, if_pos hsettled, hsame.entry]
  | foreseen hpage hdry hsettled hsame =>
      rw [hknown] at hsettled ⊢
      simp only [hpage, hdry, Bool.true_eq_false, false_and, if_false, if_neg hsettled, if_true,
        hsame.entry]
  | refused hpage hreal hanchored hsettled hanswer hsame =>
      rw [hknown] at hsettled hanswer
      have hrefused := (hpublisher.answers _ _).symm.trans (congrArg Prod.fst hanswer)
      simp only [hpage, hreal, hanchored, not_true, and_false, if_false, if_neg hsettled,
        Bool.false_eq_true, hrefused, hsame.entry]
  | accepted hpage hreal hanchored hsettled hanswer hrenews =>
      rw [hknown] at hsettled hanswer ⊢
      have hok := (hpublisher.answers _ _).symm.trans (congrArg Prod.fst hanswer)
      simp only [hpage, hreal, hanchored, not_true, and_false, if_false, if_neg hsettled,
        Bool.false_eq_true, hok, hrenews.own hnamed]

theorem Takes.files_eq (hpublisher : publisher.Steady answer) {document : Document}
    {p q : Progress σ} {outcome : Outcome} (h : Takes runner publisher document p outcome q) :
    publisher.files q.remote = publisher.files p.remote := by
  cases h with
  | unreadable | stranded | settled | foreseen => rfl
  | refused _ _ _ _ hanswer | accepted _ _ _ _ hanswer =>
      exact (congrArg (fun published => publisher.files published.2) hanswer).symm.trans
        (hpublisher.files _ _)

/-! ## The page above -/

/-- Whether the page above a document has the same id in two ledgers. -/
def SameAbove (before after : Ledger) (document : Document) : Prop :=
  document.parentIdentity ≠ "" →
    (after.entry document.parentIdentity).id = (before.entry document.parentIdentity).id

section Above

variable {before after : Ledger} {document : Document}

theorem SameAbove.pageAbove_eq (h : SameAbove before after document) :
    runner.pageAbove after document = runner.pageAbove before document := by
  unfold Runner.pageAbove
  split
  · rfl
  · next habove => exact h habove

theorem SameAbove.anchored_iff (h : SameAbove before after document) :
    Anchored after document ↔ Anchored before document := by
  unfold Anchored
  by_cases htop : document.parentIdentity = ""
  · simp [htop]
  · rw [h htop]

/-- The verdict depends on the page above and on the answers to the document's drafts. -/
theorem SameAbove.verdict_eq (h : SameAbove before after document)
    {other : Draft → Except PublishError String}
    (hanswer : ∀ draft, draft.identity = document.identity → other draft = answer draft)
    (fs : FileSystem) (own : Entry) :
    runner.verdict other fs after document own = runner.verdict answer fs before document own := by
  unfold Runner.verdict
  simp only [h.anchored_iff, h.pageAbove_eq, hanswer (document.draft _ _ _) rfl]

end Above

/-! ## The entries that are there -/

/-- Whether a document's turn asks for the entry of an identity: for that of the document above
if the document can be read, and for its own if there is also a page above. A dry run does
without the page. -/
def Runner.Asks (runner : Runner) (fs : FileSystem) (ledger : Ledger) (document : Document)
    (identity : String) : Prop :=
  runner.Reads fs document
    ∧ (identity = document.parentIdentity ∧ document.parentIdentity ≠ ""
      ∨ identity = document.identity ∧ (runner.dryRun = true ∨ Anchored ledger document))

theorem has_parentId (runner : Runner) (document : Document) (ledger : Ledger)
    (identity : String) :
    (runner.parentId document ledger).2.Has identity
      ↔ ledger.Has identity
        ∨ identity = document.parentIdentity ∧ document.parentIdentity ≠ "" := by
  unfold Runner.parentId
  by_cases htop : document.parentIdentity = ""
  · simp [htop]
  · simp only [String.isEmpty_iff, htop, if_false]
    split <;> simp [Ledger.has_entryFor htop, htop]

theorem has_publishPage (runner : Runner) (publisher : Publisher σ) {document : Document}
    (hnamed : document.identity ≠ "") (body parentId : String) (p : Progress σ)
    (identity : String) :
    (runner.publishPage publisher document body parentId p).2.ledger.Has identity
      ↔ p.ledger.Has identity ∨ identity = document.identity := by
  have hasked : (p.ledger.entryFor document.identity).2.Has identity
      ↔ p.ledger.Has identity ∨ identity = document.identity := Ledger.has_entryFor hnamed
  unfold Runner.publishPage
  simp only
  split
  · exact hasked
  split
  · exact hasked
  split
  · exact hasked
  · rw [Ledger.entryFor_handle hnamed, Ledger.has_commit, hasked, or_assoc, or_self]

/-- What a turn asks for is there from then on, and nothing else is new. -/
theorem has_syncDocument (runner : Runner) (publisher : Publisher σ) {document : Document}
    (hnamed : document.identity ≠ "") (p : Progress σ) (identity : String) :
    (runner.syncDocument publisher document p).2.2.ledger.Has identity
      ↔ p.ledger.Has identity
        ∨ runner.Asks (publisher.files p.remote) p.ledger document identity := by
  unfold Runner.syncDocument Runner.Asks Runner.Reads
  simp only
  split
  · next e hpage => simp [hpage]
  · next page hpage =>
      have habove := has_parentId runner document p.ledger identity
      obtain ⟨asked, _, ⟨hparent, hanchored⟩ | ⟨hparent, hreal, hstranded⟩⟩ :=
        parentId_cases runner document p.ledger
      · rw [hparent] at habove ⊢
        simp only [has_publishPage runner publisher hnamed, habove, hpage, hanchored]
        simp [or_assoc]
      · rw [hparent] at habove ⊢
        simp only [habove, hpage, hreal, hstranded]
        simp

/-! ## Orders of the turns -/

/-- Whether every document of a row comes behind the one above it, if that is in the row, and
none comes twice. -/
structure ParentsFirst (order : List Document) : Prop where
  later : order.Pairwise fun a b => a.identity ≠ b.identity ∧ a.parentIdentity ≠ b.identity
  own : ∀ document ∈ order, document.parentIdentity ≠ document.identity

/-- Whether documents may have their turns in an order: each has one, level by level. -/
structure Schedules (documents order : List Document) : Prop where
  perm : order.Perm documents
  levels : order.Pairwise fun a b => a.level ≤ b.level

theorem schedules_inOrder (documents : List Document) : Schedules documents (inOrder documents) :=
  ⟨inOrder_perm documents, levels_inOrder documents⟩

/-- Level by level, the documents above come first. -/
theorem Hierarchy.parentsFirst {documents order : List Document} (h : Hierarchy documents)
    (hnamed : ∀ document ∈ documents, document.identity ≠ "")
    (horder : Schedules documents order) : ParentsFirst order := by
  -- the document above has a smaller level
  have hbelow : ∀ a ∈ documents, ∀ b ∈ documents, a.level ≤ b.level →
      a.parentIdentity ≠ b.identity := by
    intro a ha b hb hlevel heq
    obtain ⟨parent, hparent, hidentity, hless⟩ := h.above a ha (heq ▸ hnamed b hb)
    rw [h.eq_of_identity hparent hb (hidentity.trans heq)] at hless
    exact absurd hless (not_lt.2 hlevel)
  have hdistinct : order.Pairwise fun a b => a.identity ≠ b.identity :=
    List.pairwise_map.1 ((horder.perm.map _).nodup_iff.2 h.distinct)
  have hmem : ∀ {document}, document ∈ order → document ∈ documents := horder.perm.mem_iff.1
  refine ⟨(hdistinct.and horder.levels).imp_of_mem fun ha hb hab => ?_, fun d hd => ?_⟩
  · exact ⟨hab.1, hbelow _ (hmem ha) _ (hmem hb) hab.2⟩
  · exact hbelow d (hmem hd) d (hmem hd) le_rfl

/-! ## The end of a run -/

/-- Whether a ledger is what documents make of an earlier one: each has the entry that is the
verdict on it, and what they ask for is there. -/
structure Concludes (runner : Runner) (answer : Draft → Except PublishError String)
    (fs : FileSystem) (documents : List Document) (start done : Ledger) : Prop where
  entry : ∀ document ∈ documents, done.entry document.identity
    = (runner.verdict answer fs done document (start.entry document.identity)).2
  others : ∀ identity ∉ documents.map Document.identity,
    done.entry identity = start.entry identity
  has : ∀ identity, done.Has identity
    ↔ start.Has identity ∨ ∃ document ∈ documents, runner.Asks fs done document identity

/-- Turns in which the documents above come first end with the verdicts on the documents. -/
theorem concludes_syncAll (runner : Runner) (hpublisher : publisher.Steady answer)
    {order : List Document} (hnamed : ∀ document ∈ order, document.identity ≠ "")
    (horder : ParentsFirst order) (p : Progress σ) :
    let done := (runner.syncAll publisher order p).2.ledger
    (runner.syncAll publisher order p).1.results
        = order.map (fun d => ⟨d.identity, d.title, (runner.verdict answer
          (publisher.files p.remote) done d (p.ledger.entry d.identity)).1⟩)
      ∧ Concludes runner answer (publisher.files p.remote) order p.ledger done := by
  intro done
  induction order generalizing p with
  | nil => exact ⟨rfl, by simp, fun _ _ => rfl, by simp [done, Runner.syncAll]⟩
  | cons document rest ih =>
      obtain ⟨hfirst, hnamed⟩ := List.forall_mem_cons.1 hnamed
      obtain ⟨hlater, hpairs⟩ := List.pairwise_cons.1 horder.later
      obtain ⟨hown, howns⟩ := List.forall_mem_cons.1 horder.own
      have htakes := takes_syncDocument runner publisher document p
      have hhas := has_syncDocument runner publisher hfirst p
      generalize hstep : runner.syncDocument publisher document p = step at htakes hhas
      obtain ⟨outcome, missing, q⟩ := step
      have hdone : done = (runner.syncAll publisher rest q).2.ledger := by
        simp only [done, Runner.syncAll, hstep]
      obtain ⟨hresults, hrest⟩ := ih hnamed ⟨hpairs, howns⟩ q
      rw [← hdone, htakes.files_eq hpublisher] at hresults hrest
      -- the turns to come leave the entries of this document and of the one above alone
      have hkept : ∀ identity, (∀ later ∈ rest, identity ≠ later.identity) →
          done.entry identity = q.ledger.entry identity := by
        intro identity hne
        rw [hdone]
        refine entry_syncAll (fun hmem => ?_) q
        obtain ⟨later, hmem, heq⟩ := List.mem_map.1 hmem
        exact hne later hmem heq.symm
      have habove : SameAbove p.ledger done document := fun _ => by
        rw [hkept _ fun later hmem => (hlater later hmem).2, htakes.entry_of_ne hown]
      have hverdict := htakes.eq_verdict hpublisher hfirst
      rw [← habove.verdict_eq (fun _ _ => rfl),
        ← hkept _ fun later hmem => (hlater later hmem).1] at hverdict
      -- and this turn leaves the entries of the documents to come alone
      have hstart : ∀ later ∈ rest, q.ledger.entry later.identity = p.ledger.entry later.identity :=
        fun later hmem => htakes.entry_of_ne fun heq => (hlater later hmem).1 heq.symm
      refine ⟨?_, ?_, fun identity hnew => ?_, fun identity => ?_⟩
      · simp only [Runner.syncAll, hstep, hresults, List.map_cons, hverdict]
        refine congrArg _ (List.map_congr_left fun later hmem => ?_)
        rw [hstart later hmem]
      · refine List.forall_mem_cons.2 ⟨by rw [hverdict], fun later hmem => ?_⟩
        rw [hrest.entry later hmem, hstart later hmem]
      · rw [List.map_cons, List.mem_cons, not_or] at hnew
        rw [hrest.others identity hnew.2, htakes.entry_of_ne hnew.1]
      · rw [hrest.has, hhas, List.exists_mem_cons_iff, or_assoc]
        unfold Runner.Asks
        rw [habove.anchored_iff]

section Run

variable {documents order : List Document} {fs : FileSystem} {start done done' : Ledger}

theorem Concludes.of_perm (h : Concludes runner answer fs order start done)
    (hperm : order.Perm documents) : Concludes runner answer fs documents start done where
  entry document hmem := h.entry document (hperm.mem_iff.2 hmem)
  others identity hnew := h.others identity fun hmem =>
    hnew ((hperm.map Document.identity).mem_iff.1 hmem)
  has identity := by simp only [h.has, hperm.mem_iff]

/-- Whatever their order level by level, turns end with the verdicts on the documents. -/
theorem concludes_schedule (runner : Runner) (hpublisher : publisher.Steady answer)
    (h : Hierarchy documents)
    (hnamed : ∀ document ∈ documents, document.identity ≠ "")
    (horder : Schedules documents order) (p : Progress σ) :
    let done := (runner.syncAll publisher order p).2.ledger
    (runner.syncAll publisher order p).1.results
        = order.map (fun d => ⟨d.identity, d.title, (runner.verdict answer
          (publisher.files p.remote) done d (p.ledger.entry d.identity)).1⟩)
      ∧ Concludes runner answer (publisher.files p.remote) documents p.ledger done := by
  obtain ⟨hresults, hdone⟩ := concludes_syncAll runner hpublisher
    (fun document hmem => hnamed document (horder.perm.mem_iff.1 hmem))
    (h.parentsFirst hnamed horder) p
  exact ⟨hresults, hdone.of_perm horder.perm⟩

theorem concludes_run (runner : Runner) (hpublisher : publisher.Steady answer)
    (h : Hierarchy documents)
    (hnamed : ∀ document ∈ documents, document.identity ≠ "") (p : Progress σ) :
    let done := (runner.run publisher documents p).2.ledger
    (runner.run publisher documents p).1.results
        = (inOrder documents).map (fun d => ⟨d.identity, d.title, (runner.verdict answer
          (publisher.files p.remote) done d (p.ledger.entry d.identity)).1⟩)
      ∧ Concludes runner answer (publisher.files p.remote) documents p.ledger done :=
  concludes_schedule runner hpublisher h hnamed (schedules_inOrder documents) p

/-! ## Two runs -/

variable {other : Draft → Except PublishError String} (spared : String → Prop)

/-- Where two publishers answer alike for some documents, and each of these is below another one
of them or below a page with the same id, all of them are below pages with the same id. -/
theorem Concludes.sameAbove (h : Hierarchy documents)
    (hone : Concludes runner answer fs documents start done)
    (htwo : Concludes runner other fs documents start done')
    (hanswer : ∀ draft, spared draft.identity → other draft = answer draft)
    (habove : ∀ document ∈ documents, spared document.identity →
      spared document.parentIdentity ∨ SameAbove done done' document) :
    ∀ document ∈ documents, spared document.identity → SameAbove done done' document := by
  -- from level to level, down the tree
  refine h.induct fun document hmem ih hspared => ?_
  rcases habove document hmem hspared with hparent | hsame
  · intro htop
    obtain ⟨parent, hmem', hidentity, hsame⟩ := ih htop
    rw [← hidentity] at hparent ⊢
    rw [htwo.entry parent hmem', hone.entry parent hmem',
      (hsame hparent).verdict_eq fun draft hdraft => hanswer draft (hdraft ▸ hparent)]
  · exact hsame

/-- Documents below pages with the same id come out of both runs alike, and so does every
identity that names no document. -/
theorem Concludes.find?_eq (hone : Concludes runner answer fs documents start done)
    (htwo : Concludes runner other fs documents start done')
    (hanswer : ∀ draft, spared draft.identity → other draft = answer draft)
    (hsame : ∀ document ∈ documents, spared document.identity → SameAbove done done' document)
    {identity : String} (hspared : spared identity) :
    Keyed.find? identity done'.entries = Keyed.find? identity done.entries := by
  apply Ledger.find?_eq_of_entry
  · rw [htwo.has, hone.has]
    -- only the document itself asks for an entry depending on the page above
    have hasks : ∀ document ∈ documents, (runner.Asks fs done' document identity
        ↔ runner.Asks fs done document identity) := by
      intro document hmem
      unfold Runner.Asks
      by_cases hown : identity = document.identity
      · rw [(hsame document hmem (hown ▸ hspared)).anchored_iff]
      · simp only [hown, false_and]
    exact or_congr_right (exists_congr fun document => and_congr_right fun hmem =>
      hasks document hmem)
  · by_cases hmem : identity ∈ documents.map Document.identity
    · obtain ⟨document, hdocument, rfl⟩ := List.mem_map.1 hmem
      rw [htwo.entry document hdocument, hone.entry document hdocument,
        (hsame document hdocument hspared).verdict_eq fun draft hdraft =>
          hanswer draft (hdraft ▸ hspared)]
    · rw [htwo.others identity hmem, hone.others identity hmem]

end Run

end WikiPress.Sync
