import WikiPress.Proofs.Sync.Verdict

/-!
# WikiPress.Proofs.Sync.Isolation

A page that is refused takes nobody with it but the pages below.

Design points:

* The two runs have publishers that give the same answers, except that one refuses a page
  the other may take. Both solve the same equations for every other document, apart from the
  page above (`Concludes`).
* A document is spared if it is below nothing that differs (`sameFor_of_spared`). Which
  documents these are depends on whether the refused page is there already: if it is, it
  keeps its id, and that is all the pages below ask for.
-/

namespace WikiPress.Sync

open WikiPress.Files (FileSystem)

variable {σ τ : Type} {runner : Runner} {answer other : Draft → Except PublishError String}

/-! ## Outcomes by identity -/

theorem Report.outcome?_of_results {report : Report} {documents : List Document}
    {outcome : Document → Outcome}
    (h : report.results = documents.map fun d => ⟨d.identity, d.title, outcome d⟩)
    (identity : String) :
    report.outcome? identity
      = (documents.find? fun d => d.identity = identity).map outcome := by
  rw [Report.outcome?, h, List.find?_map, Option.map_map]
  rfl

/-- Whether two runs come to the same for an identity: to the same outcome, if it has one, and to
the same entry, if it has one. -/
structure SameFor (identity : String) (one : Report × Progress σ) (two : Report × Progress τ) :
    Prop where
  outcome : two.1.outcome? identity = one.1.outcome? identity
  entry : Keyed.find? identity two.2.ledger.entries = Keyed.find? identity one.2.ledger.entries

/-- Documents whose drafts get the same answers, each below another one of them or below a page
with the same id, come out of both runs alike. -/
theorem sameFor_of_spared (spared : String → Prop) {first : Publisher σ}
    (hfirst : first.Steady answer) {second : Publisher τ} (hsecond : second.Steady other)
    {documents : List Document} (hnamed : ∀ document ∈ documents, document.identity ≠ "")
    (h : Hierarchy documents) {ledger : Ledger} {remote : σ} {remote' : τ}
    (hfiles : second.files remote' = first.files remote)
    (hanswer : ∀ draft, spared draft.identity → other draft = answer draft)
    (habove : ∀ document ∈ documents, spared document.identity →
      spared document.parentIdentity
        ∨ SameAbove (runner.run first documents ⟨ledger, remote⟩).2.ledger
          (runner.run second documents ⟨ledger, remote'⟩).2.ledger document)
    {identity : String} (hspared : spared identity) :
    SameFor identity (runner.run first documents ⟨ledger, remote⟩)
      (runner.run second documents ⟨ledger, remote'⟩) := by
  obtain ⟨hresults, hone⟩ := concludes_run runner hfirst h hnamed ⟨ledger, remote⟩
  obtain ⟨hresults', htwo⟩ :=
    concludes_run runner hsecond h hnamed ⟨ledger, remote'⟩
  simp only [hfiles] at hresults' htwo
  have hsame := hone.sameAbove spared h htwo hanswer habove
  refine ⟨?_, hone.find?_eq spared htwo hanswer hsame hspared⟩
  rw [Report.outcome?_of_results hresults, Report.outcome?_of_results hresults']
  refine Option.map_congr fun document hfind => ?_
  have hidentity : document.identity = identity := by simpa using List.find?_some hfind
  have hmem := mem_inOrder.1 (List.mem_of_find?_eq_some hfind)
  rw [← hidentity] at hspared
  exact congrArg Prod.fst ((hsame document hmem hspared).verdict_eq
    (fun draft hdraft => hanswer draft (hdraft ▸ hspared)) _ _)

/-! ## Pages that are there -/

/-- Whether the page of a document that has one keeps its id, as far as answers to the drafts
of the document go. -/
def KeepsId (answer : Draft → Except PublishError String) (identity : String) : Prop :=
  ∀ draft id pageId, draft.identity = identity → answer draft = .ok id →
    draft.pageId = some pageId → id = pageId

theorem verdict_id {document : Document} (hkept : KeepsId answer document.identity)
    {own : Entry} (hid : own.id ≠ "") (fs : FileSystem) (ledger : Ledger) :
    (runner.verdict answer fs ledger document own).2.id = own.id := by
  have hnew : own.isNew = false := by simpa [Entry.isNew] using hid
  unfold Runner.verdict
  split
  · rfl
  split
  · rfl
  simp only
  split
  · rfl
  split
  · rfl
  split
  · rfl
  · next hanswer => exact hkept _ _ _ rfl hanswer (by simp [Document.draft, hnew])

theorem Concludes.id_eq {documents : List Document} {fs : FileSystem} {start done : Ledger}
    (h : Concludes runner answer fs documents start done) {identity : String}
    (hkept : KeepsId answer identity) (hid : (start.entry identity).id ≠ "") :
    (done.entry identity).id = (start.entry identity).id := by
  by_cases hmem : identity ∈ documents.map Document.identity
  · obtain ⟨document, hdocument, rfl⟩ := List.mem_map.1 hmem
    rw [h.entry document hdocument, verdict_id hkept hid]
  · rw [h.others identity hmem]

/-! ## A page that is refused -/

/-- Whether a document is somewhere below the one with an identity. -/
inductive Below (documents : List Document) (identity : String) : Document → Prop
  | child {document parent : Document} :
      parent ∈ documents → parent.identity = identity → document.parentIdentity = identity →
      Below documents identity document
  | further {document parent : Document} :
      parent ∈ documents → Below documents identity parent →
      document.parentIdentity = parent.identity → Below documents identity document

/-- **A refused page takes nobody with it but the pages below.** Where two publishers give the
same answers, except that one refuses every draft of a page, their runs come to the same for
all documents but that page and those below it. If the page was there before, they come to
the same for those below it as well. -/
theorem refusal_isolated {first : Publisher σ} (hfirst : first.Steady answer)
    {second : Publisher τ} (hsecond : second.Steady other) {identity : String}
    (hkept : KeepsId answer identity)
    (hagree : ∀ draft, draft.identity ≠ identity → other draft = answer draft)
    (hrefused : ∀ draft, draft.identity = identity → ∃ e, other draft = .error e)
    {documents : List Document} (hnamed : ∀ document ∈ documents, document.identity ≠ "")
    (h : Hierarchy documents) (runner : Runner) (ledger : Ledger) (remote : σ) (remote' : τ)
    (hfiles : second.files remote' = first.files remote) :
    let usual := runner.run first documents ⟨ledger, remote⟩
    let failing := runner.run second documents ⟨ledger, remote'⟩
    (∀ name, name ≠ identity →
      (∀ document ∈ documents, document.identity = name → ¬ Below documents identity document) →
      SameFor name usual failing)
    ∧ ((ledger.entry identity).id ≠ "" → ∀ name, name ≠ identity → SameFor name usual failing) := by
  intro usual failing
  refine ⟨fun name hne hbelow => ?_, fun hid name hne => ?_⟩
  · refine sameFor_of_spared (fun name => name ≠ identity ∧ ∀ document ∈ documents,
        document.identity = name → ¬ Below documents identity document)
      hfirst hsecond hnamed h hfiles (fun draft hspared => hagree draft hspared.1)
      (fun document hmem ⟨_, hspared⟩ => ?_) ⟨hne, hbelow⟩
    have hnot := hspared document hmem rfl
    by_cases htop : document.parentIdentity = ""
    · exact Or.inr fun habove => absurd htop habove
    -- the document above is spared, or this one would not be
    · obtain ⟨parent, hparent, hidentity, _⟩ := h.above document hmem htop
      refine Or.inl ⟨fun heq => hnot (.child hparent (hidentity.trans heq) heq), ?_⟩
      exact fun above habove heq hbelow => hnot (.further habove hbelow heq.symm)
  · refine sameFor_of_spared (fun name => name ≠ identity) hfirst hsecond hnamed h hfiles
      hagree (fun document hmem _ => ?_) hne
    by_cases hparent : document.parentIdentity = identity
    -- the page above is the one that is refused, and its id is the same in both runs
    · refine Or.inr fun _ => ?_
      have hkept' : KeepsId other identity := by
        intro draft id pageId hdraft hok _
        obtain ⟨e, hrefusal⟩ := hrefused draft hdraft
        rw [hrefusal] at hok
        cases hok
      have hone := (concludes_run runner hfirst h hnamed
        ⟨ledger, remote⟩).2.id_eq hkept hid
      have htwo := (concludes_run runner hsecond h hnamed
        ⟨ledger, remote'⟩).2.id_eq hkept' hid
      rw [hparent]
      exact htwo.trans hone.symm
    · exact Or.inl hparent

/-- A section is refused whose page is there already: the page below it is created as ever. Its
refusal does nothing to the section beside it. -/
theorem refusal_isolated_section :
    let files : FileSystem := { root := .directory [], workingDirectory := [] }
    let first := refusing files []
    let second := refusing files ["b"]
    let documents := [blank "home" "" 0, blank "a" "home" 1, blank "b" "home" 1, blank "b/x" "b" 2]
    let runner : Runner := { rootPageId := "space" }
    let ledger : Ledger := { path := "state.json", entries := [("b", { id := "7" })] }
    first.Steady (refusal []) ∧ second.Steady (refusal ["b"]) ∧ KeepsId (refusal []) "b"
    ∧ (∀ draft, draft.identity ≠ "b" → refusal ["b"] draft = refusal [] draft)
    ∧ (∀ draft, draft.identity = "b" → ∃ e, refusal ["b"] draft = .error e)
    ∧ (∀ document ∈ documents, document.identity ≠ "") ∧ Hierarchy documents
    ∧ second.files () = first.files ()
    ∧ (∀ document ∈ documents, document.identity = "a" → ¬ Below documents "b" document)
    ∧ (ledger.entry "b").id ≠ ""
    ∧ SameFor "a" (runner.run first documents ⟨ledger, ()⟩)
      (runner.run second documents ⟨ledger, ()⟩)
    ∧ SameFor "b/x" (runner.run first documents ⟨ledger, ()⟩)
      (runner.run second documents ⟨ledger, ()⟩) := by
  intro files first second documents runner ledger
  have hfirst : first.Steady (refusal []) := refusing_steady _ _
  have hsecond : second.Steady (refusal ["b"]) := refusing_steady _ _
  have hkept : KeepsId (refusal []) "b" := by
    intro draft id pageId _ hok hpage
    simpa [refusal, hpage] using hok.symm
  have hagree : ∀ draft, draft.identity ≠ "b" → refusal ["b"] draft = refusal [] draft := by
    intro draft hne
    simp [refusal, hne]
  have hrefused : ∀ draft, draft.identity = "b" → ∃ e, refusal ["b"] draft = .error e := by
    intro draft heq
    exact ⟨.rejected draft.title, by simp [refusal, heq]⟩
  have hnamed : ∀ document ∈ documents, document.identity ≠ "" := by decide
  have hdocuments : Hierarchy documents := ⟨by decide, by decide⟩
  -- whatever is below the section is below it or below the page in it
  have hbelow : ∀ {document}, Below documents "b" document →
      document.parentIdentity = "b" ∨ document.parentIdentity = "b/x" := by
    intro document h
    induction h with
    | child _ _ hparent => exact Or.inl hparent
    | further hmem _ hparent ih =>
        rw [hparent]
        revert ih
        exact (by decide : ∀ parent ∈ documents, parent.parentIdentity = "b"
          ∨ parent.parentIdentity = "b/x" → parent.identity = "b" ∨ parent.identity = "b/x")
          _ hmem
  have hbeside : ∀ document ∈ documents, document.identity = "a" →
      ¬ Below documents "b" document := by
    intro document hmem hidentity h
    exact (by decide : ∀ document ∈ documents, document.identity = "a" →
      ¬ (document.parentIdentity = "b" ∨ document.parentIdentity = "b/x"))
      document hmem hidentity (hbelow h)
  have hid : (ledger.entry "b").id ≠ "" := by decide
  obtain ⟨hbesides, hbelows⟩ := refusal_isolated hfirst hsecond hkept hagree hrefused hnamed
    hdocuments runner ledger () () rfl
  exact ⟨hfirst, hsecond, hkept, hagree, hrefused, hnamed, hdocuments, rfl, hbeside, hid,
    hbesides "a" (by decide) hbeside, hbelows hid "b/x" (by decide)⟩

end WikiPress.Sync
