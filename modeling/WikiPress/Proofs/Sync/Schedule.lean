import WikiPress.Proofs.Sync.Verdict

/-!
# WikiPress.Proofs.Sync.Schedule

The documents of a level may have their turns in any order.

Design points:

* `Runner.runAs` has the order of the turns as a parameter. Results are put where their
  documents belong in the order of publication, so the report does not tell in which order
  they came in.
* Both the ledger and the results are what `Concludes` says, which knows no order. A ledger
  with the same entries is the same ledger, since a run over documents with names touches
  nothing else in it (`OnlyEntries`).
* What documents miss beside themselves is noted as it is found, so it comes in the order of
  the turns.
-/

namespace WikiPress

/-! ## What a run leaves alone -/

/-- Whether nothing but entries differs between two ledgers. -/
structure Ledger.OnlyEntries (before after : Ledger) : Prop where
  path : after.path = before.path
  cells : after.cells = before.cells

theorem Ledger.OnlyEntries.trans {a b c : Ledger} (h : OnlyEntries a b) (h' : OnlyEntries b c) :
    OnlyEntries a c :=
  ⟨h'.path.trans h.path, h'.cells.trans h.cells⟩

/-- Ledgers that differ in nothing but entries are one if they have the same entries. -/
theorem Ledger.OnlyEntries.eq {before one other : Ledger} (h : OnlyEntries before one)
    (h' : OnlyEntries before other) (hentries : one.entries = other.entries) : one = other := by
  obtain ⟨_, entries, _⟩ := one
  obtain ⟨hpath, hcells⟩ := h
  obtain ⟨hpath', hcells'⟩ := h'
  simp only at hpath hcells hentries
  rw [hpath, hcells, hentries, ← hpath', ← hcells']

namespace Sync

open WikiPress.Files (FileSystem)

variable {σ : Type} {runner : Runner} {publisher : Publisher σ}
  {answer : Draft → Except PublishError String}

theorem onlyEntries_parentId (runner : Runner) (document : Document) (ledger : Ledger) :
    ledger.OnlyEntries (runner.parentId document ledger).2 := by
  unfold Runner.parentId
  by_cases htop : document.parentIdentity = ""
  · simp only [String.isEmpty_iff, htop, if_true]
    exact ⟨rfl, rfl⟩
  · simp only [String.isEmpty_iff, htop, if_false, Ledger.entryFor_of_named htop]
    split <;> exact ⟨rfl, rfl⟩

theorem onlyEntries_publishPage (runner : Runner) (publisher : Publisher σ) {document : Document}
    (hnamed : document.identity ≠ "") (body parentId : String) (p : Progress σ) :
    p.ledger.OnlyEntries (runner.publishPage publisher document body parentId p).2.ledger := by
  unfold Runner.publishPage
  simp only [Ledger.entryFor_of_named hnamed]
  split
  · exact ⟨rfl, rfl⟩
  split
  · exact ⟨rfl, rfl⟩
  split <;> exact ⟨rfl, rfl⟩

theorem onlyEntries_syncDocument (runner : Runner) (publisher : Publisher σ) {document : Document}
    (hnamed : document.identity ≠ "") (p : Progress σ) :
    p.ledger.OnlyEntries (runner.syncDocument publisher document p).2.2.ledger := by
  have hasked := onlyEntries_parentId runner document p.ledger
  unfold Runner.syncDocument
  simp only
  split
  · exact ⟨rfl, rfl⟩
  split
  · next hparent =>
      rw [hparent] at hasked
      exact hasked
  · next parentId asked hparent =>
      rw [hparent] at hasked
      exact hasked.trans (onlyEntries_publishPage runner publisher hnamed _ parentId
        ⟨asked, p.remote⟩)

theorem onlyEntries_syncAll (runner : Runner) (publisher : Publisher σ) {order : List Document}
    (hnamed : ∀ document ∈ order, document.identity ≠ "") (p : Progress σ) :
    p.ledger.OnlyEntries (runner.syncAll publisher order p).2.ledger := by
  induction order generalizing p with
  | nil => exact ⟨rfl, rfl⟩
  | cons document rest ih =>
      obtain ⟨hfirst, hnamed⟩ := List.forall_mem_cons.1 hnamed
      exact (onlyEntries_syncDocument runner publisher hfirst p).trans (ih hnamed _)

/-! ## Turns in any order -/

/-- Syncs documents that have their turns in some order. Each result stands where its document
belongs in the order of publication. -/
def Runner.runAs (runner : Runner) (publisher : Publisher σ) (documents order : List Document)
    (progress : Progress σ) : Report × Progress σ :=
  let (report, progress) := runner.syncAll publisher order progress
  ({ report with
      results := (inOrder documents).filterMap fun d => (order.zip report.results).lookup d },
    progress)

/-- In its place, the result of a document is found again. -/
theorem lookup_zip_map (result : Document → Result) {order : List Document} {document : Document}
    (h : document ∈ order) :
    (order.zip (order.map result)).lookup document = some (result document) := by
  induction order with
  | nil => cases h
  | cons first rest ih =>
      rw [List.map_cons, List.zip_cons_cons, List.lookup_cons]
      by_cases heq : document = first
      · simp [heq]
      · rw [beq_eq_false_iff_ne.2 heq]
        exact ih ((List.mem_cons.1 h).resolve_left heq)

theorem filterMap_lookup (result : Document → Result) {documents order : List Document}
    (h : ∀ document ∈ documents, document ∈ order) :
    documents.filterMap (fun d => (order.zip (order.map result)).lookup d)
      = documents.map result :=
  (List.filterMap_congr fun document hmem => lookup_zip_map result (h document hmem)).trans
    (congrFun List.filterMap_eq_map documents)

/-- The files beside itself that a document misses, if it can be read. -/
def Runner.missingOf (runner : Runner) (fs : FileSystem) (document : Document) :
    List MissingAttachment :=
  match runner.render fs document with
  | .error _ => []
  | .ok page => missingAttachments fs document page

theorem missing_syncDocument (runner : Runner) (publisher : Publisher σ) (document : Document)
    (p : Progress σ) :
    (runner.syncDocument publisher document p).2.1
      = runner.missingOf (publisher.files p.remote) document := by
  unfold Runner.syncDocument Runner.missingOf
  cases hpage : runner.render (publisher.files p.remote) document with
  | error e => simp only [hpage]
  | ok page =>
      simp only [hpage]
      split <;> rfl

theorem missing_syncAll (hpublisher : publisher.Steady answer) (order : List Document)
    (p : Progress σ) :
    (runner.syncAll publisher order p).1.missing
      = order.flatMap (runner.missingOf (publisher.files p.remote)) := by
  induction order generalizing p with
  | nil => rfl
  | cons document rest ih =>
      have hfiles := (takes_syncDocument runner publisher document p).files_eq hpublisher
      simp only [Runner.syncAll, List.flatMap_cons, ih, missing_syncDocument, hfiles]

/-! ## What reports cover -/

/-- An outcome is of one kind. -/
theorem Outcome.kinds (outcome : Outcome) :
    (if outcome == .unchanged then 1 else 0) + (if outcome.isCreation then 1 else 0)
      + (if outcome.isUpdate then 1 else 0) + (if outcome.isFailure then 1 else 0) = 1 := by
  cases outcome <;> rfl

/-- Every result is counted once. -/
theorem Report.count_total (report : Report) :
    report.unchanged + report.created + report.updated + report.failed
      = report.results.length := by
  obtain ⟨results, missing⟩ := report
  simp only [Report.unchanged, Report.created, Report.updated, Report.failed, Report.count]
  induction results with
  | nil => rfl
  | cons result rest ih =>
      have hkind := result.outcome.kinds
      simp only [List.countP_cons, List.length_cons]
      omega

/-- Whether a report has one result for each document, by level and by identity within a
level, and counts each of them once. -/
structure Report.Covers (report : Report) (documents : List Document) : Prop where
  results : ∃ sorted : List Document, sorted.Perm documents
    ∧ sorted.Pairwise (fun a b => a.level < b.level
      ∨ a.level = b.level ∧ a.identity < b.identity)
    ∧ report.results.map (fun r => (r.identity, r.title))
      = sorted.map fun d => (d.identity, d.title)
  counted : report.unchanged + report.created + report.updated + report.failed
    = documents.length

/-- Documents with different names are in one order only. -/
theorem Hierarchy.strict_inOrder {documents : List Document} (h : Hierarchy documents) :
    (inOrder documents).Pairwise fun a b => a.level < b.level
      ∨ a.level = b.level ∧ a.identity < b.identity := by
  have hdistinct : (inOrder documents).Pairwise fun a b => a.identity ≠ b.identity :=
    List.pairwise_map.1 h.distinct_inOrder
  refine (hdistinct.and (pairwise_inOrder documents)).imp fun hboth => ?_
  obtain ⟨hne, hprecedes⟩ := hboth
  rcases precedes_iff.1 hprecedes with hlevel | ⟨hlevel, hle⟩
  · exact Or.inl hlevel
  · exact Or.inr ⟨hlevel, lt_of_le_of_ne hle hne⟩

theorem Hierarchy.inOrder_eq {documents given : List Document} (h : Hierarchy documents)
    (hgiven : given.Perm documents) : inOrder given = inOrder documents := by
  refine inOrder_of_perm (hgiven.trans (inOrder_perm documents).symm)
    (pairwise_inOrder documents) fun a ha b hb hab hba => ?_
  exact h.eq_of_identity (mem_inOrder.1 ha) (mem_inOrder.1 hb) (identity_eq_of_precedes hab hba)

theorem covers_run (runner : Runner) (publisher : Publisher σ) {documents : List Document}
    (h : Hierarchy documents) (start : Progress σ) :
    (runner.run publisher documents start).1.Covers documents where
  results := ⟨inOrder documents, inOrder_perm documents, h.strict_inOrder,
    results_syncAll runner publisher (inOrder documents) start⟩
  counted := by
    have hlength := congrArg List.length
      (results_syncAll runner publisher (inOrder documents) start)
    rw [List.length_map, List.length_map, (inOrder_perm documents).length_eq] at hlength
    rw [Report.count_total]
    exact hlength

/-! ## The order inside a level -/

theorem Concludes.unique {documents : List Document} (h : Hierarchy documents) {fs : FileSystem}
    {start done done' : Ledger} (hone : Concludes runner answer fs documents start done)
    (htwo : Concludes runner answer fs documents start done')
    (hordered : Keyed.Ascending done.entries) (hordered' : Keyed.Ascending done'.entries) :
    done'.entries = done.entries := by
  have hsame := hone.sameAbove (fun _ => True) h htwo (fun _ _ => rfl)
    fun _ _ _ => Or.inl trivial
  exact Keyed.ext hordered' hordered fun identity =>
    hone.find?_eq (fun _ => True) htwo (fun _ _ => rfl) hsame trivial

/-- **The order of documents is of no account**, neither that in which they are given nor, within
a level, that of their turns: the run ends with the same ledger and the same results. Every
document has one result, by level and identity, and is counted once. -/
theorem run_of_schedule {publisher : Publisher σ} {answer : Draft → Except PublishError String}
    (hpublisher : publisher.Steady answer) {documents : List Document}
    (hnamed : ∀ document ∈ documents, document.identity ≠ "") (h : Hierarchy documents)
    (runner : Runner) {start : Progress σ} (hordered : Keyed.Ascending start.ledger.entries)
    {given order : List Document} (hgiven : given.Perm documents)
    (horder : Schedules given order) :
    let usual := runner.run publisher documents start
    let other := runner.runAs publisher given order start
    runner.run publisher given start = usual
      ∧ other.2.ledger = usual.2.ledger ∧ other.1.results = usual.1.results
      ∧ other.1.missing.Perm usual.1.missing
      ∧ usual.1.Covers documents := by
  intro usual other
  have horder' : Schedules documents order := ⟨horder.perm.trans hgiven, horder.levels⟩
  obtain ⟨husual, hdone⟩ := concludes_run runner hpublisher h hnamed start
  obtain ⟨hother, hdone'⟩ := concludes_schedule runner hpublisher h hnamed
    horder' start
  have hentries := hdone.unique h hdone' (ascending_syncAll hordered) (ascending_syncAll hordered)
  have honly : ∀ {turns : List Document}, turns.Perm documents →
      start.ledger.OnlyEntries (runner.syncAll publisher turns start).2.ledger := fun hperm =>
    onlyEntries_syncAll runner publisher
      (fun document hmem => hnamed document (hperm.mem_iff.1 hmem)) start
  have hledger := (honly horder'.perm).eq (honly (inOrder_perm documents)) hentries
  refine ⟨?_, hledger, ?_, ?_, covers_run runner publisher h start⟩
  · simp only [usual, Runner.run, h.inOrder_eq hgiven]
  · rw [hledger] at hother
    simp only [other, Runner.runAs, hother, h.inOrder_eq hgiven]
    exact (filterMap_lookup _ fun document hmem =>
      horder'.perm.mem_iff.2 (mem_inOrder.1 hmem)).trans husual.symm
  · simp only [other, usual, Runner.runAs, Runner.run, missing_syncAll hpublisher]
    exact (horder'.perm.trans (inOrder_perm documents).symm).flatMap_right _

/-- Two sections of which one is refused, with a page below that one. The documents are given
leaf first, and the refused section has its turn before the other. -/
theorem run_of_schedule_siblings :
    let publisher := refusing { root := .directory [], workingDirectory := [] } ["b"]
    let documents := [blank "home" "" 0, blank "a" "home" 1, blank "b" "home" 1, blank "b/x" "b" 2]
    let given := [blank "b/x" "b" 2, blank "b" "home" 1, blank "a" "home" 1, blank "home" "" 0]
    let order := [blank "home" "" 0, blank "b" "home" 1, blank "a" "home" 1, blank "b/x" "b" 2]
    let runner : Runner := { rootPageId := "space" }
    let start : Progress Unit := ⟨{ path := "state.json", entries := [("a", { id := "7" })] }, ()⟩
    publisher.Steady (refusal ["b"]) ∧ (∀ document ∈ documents, document.identity ≠ "")
      ∧ Hierarchy documents ∧ Keyed.Ascending start.ledger.entries
      ∧ given.Perm documents ∧ Schedules given order
      ∧ (let usual := runner.run publisher documents start
        let other := runner.runAs publisher given order start
        runner.run publisher given start = usual
          ∧ other.2.ledger = usual.2.ledger ∧ other.1.results = usual.1.results
          ∧ other.1.missing.Perm usual.1.missing
          ∧ usual.1.Covers documents) := by
  intro publisher documents given order runner start
  have hpublisher : publisher.Steady (refusal ["b"]) := refusing_steady _ _
  have hnamed : ∀ document ∈ documents, document.identity ≠ "" := by decide
  have hdocuments : Hierarchy documents := ⟨by decide, by decide⟩
  have hordered : Keyed.Ascending start.ledger.entries := by decide
  have hgiven : given.Perm documents := by decide +kernel
  have horder : Schedules given order := ⟨by decide +kernel, by decide⟩
  exact ⟨hpublisher, hnamed, hdocuments, hordered, hgiven, horder,
    run_of_schedule hpublisher hnamed hdocuments runner hordered hgiven horder⟩

end Sync

end WikiPress
