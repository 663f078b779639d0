import Mathlib.Data.List.Nodup
import WikiPress.Proofs.Sync.Turn

/-!
# WikiPress.Proofs.Sync.Hierarchy

Runs over documents that form a tree of pages.

Design points:

* A document has its turn after the one above it and before those below
  (`Hierarchy.above_taken`), because it is taken by level. How the documents were given
  makes no difference.
* No other turn touches a document's entry. So a turn finds its own entry as it was at the
  start and leaves it as it is at the end, and the entry of the page above has its final
  contents by then (`Turn`). Every statement about a whole run is one about its turns.
-/

namespace WikiPress.Sync

variable {σ : Type} {runner : Runner} {publisher : Publisher σ}

/-! ## The order of publication -/

/-- Documents with different names, each below a document of a smaller level, if it is below
one at all. -/
structure Hierarchy (documents : List Document) : Prop where
  distinct : (documents.map Document.identity).Nodup
  above : ∀ document ∈ documents, document.parentIdentity ≠ "" →
    ∃ parent ∈ documents, parent.identity = document.parentIdentity
      ∧ parent.level < document.level

theorem mem_inOrder {documents : List Document} {document : Document} :
    document ∈ inOrder documents ↔ document ∈ documents :=
  List.mem_mergeSort

theorem inOrder_perm (documents : List Document) : (inOrder documents).Perm documents :=
  List.mergeSort_perm documents _

/-- Documents that are in order are taken as they come. -/
theorem inOrder_of_pairwise {documents : List Document}
    (h : documents.Pairwise fun a b => a.precedes b) : inOrder documents = documents :=
  List.mergeSort_of_pairwise h

theorem precedes_iff {a b : Document} :
    a.precedes b = true ↔ a.level < b.level ∨ a.level = b.level ∧ a.identity ≤ b.identity := by
  simp only [Document.precedes, Bool.or_eq_true, decide_eq_true_eq, Bool.and_eq_true, beq_iff_eq]

theorem level_le_of_precedes {a b : Document} (h : a.precedes b = true) : a.level ≤ b.level := by
  rw [precedes_iff] at h
  omega

/-- Documents that come equal have one name. -/
theorem identity_eq_of_precedes {a b : Document} (h : a.precedes b = true)
    (h' : b.precedes a = true) : a.identity = b.identity := by
  rw [precedes_iff] at h h'
  rcases h with h | ⟨hlevel, h⟩ <;> rcases h' with h' | ⟨hlevel', h'⟩
  · omega
  · omega
  · omega
  · exact le_antisymm h h'

/-- Documents are taken by level, and by identity within a level. -/
theorem pairwise_inOrder (documents : List Document) :
    (inOrder documents).Pairwise fun a b => a.precedes b := by
  refine List.pairwise_mergeSort (fun a b c hab hbc => ?_) (fun a b => ?_) documents
  · rw [precedes_iff] at hab hbc ⊢
    rcases hab with hab | ⟨hab, hab'⟩ <;> rcases hbc with hbc | ⟨hbc, hbc'⟩
    · exact Or.inl (hab.trans hbc)
    · exact Or.inl (hbc ▸ hab)
    · exact Or.inl (hab ▸ hbc)
    · exact Or.inr ⟨hab.trans hbc, le_trans hab' hbc'⟩
  · rw [Bool.or_eq_true, precedes_iff, precedes_iff]
    rcases lt_trichotomy a.level b.level with h | h | h
    · exact Or.inl (Or.inl h)
    · rcases le_total a.identity b.identity with h' | h'
      · exact Or.inl (Or.inr ⟨h, h'⟩)
      · exact Or.inr (Or.inr ⟨h.symm, h'⟩)
    · exact Or.inr (Or.inl h)

theorem levels_inOrder (documents : List Document) :
    (inOrder documents).Pairwise fun a b => a.level ≤ b.level :=
  (pairwise_inOrder documents).imp level_le_of_precedes

/-- In documents that are in order, what is of a smaller level comes before. -/
theorem mem_before_of_level_lt {documents before after : List Document}
    {document other : Document} (hsorted : documents.Pairwise fun a b => a.precedes b)
    (hsplit : documents = before ++ document :: after) (hmem : other ∈ documents)
    (hlevel : other.level < document.level) : other ∈ before := by
  rw [hsplit, List.mem_append, List.mem_cons] at hmem
  rcases hmem with hbefore | rfl | hafter
  · exact hbefore
  · exact absurd hlevel (lt_irrefl _)
  · rw [hsplit] at hsorted
    have hprecedes := (List.pairwise_cons.1 (List.pairwise_append.1 hsorted).2.1).1 _ hafter
    exact absurd hlevel (not_lt.2 (level_le_of_precedes hprecedes))

/-- Documents of which no two come equal have one order. -/
theorem inOrder_of_perm {documents sorted : List Document} (hperm : documents.Perm sorted)
    (h : sorted.Pairwise fun a b => a.precedes b)
    (hstrict : ∀ a ∈ sorted, ∀ b ∈ sorted, a.precedes b → b.precedes a → a = b) :
    inOrder documents = sorted := by
  have hsame : (inOrder documents).Perm sorted := (inOrder_perm documents).trans hperm
  refine hsame.eq_of_pairwise (fun a b ha hb hab hba => ?_) (pairwise_inOrder documents) h
  exact hstrict a (hsame.mem_iff.1 ha) b hb hab hba

namespace Hierarchy

variable {documents taken rest : List Document} {document : Document}

theorem distinct_inOrder (h : Hierarchy documents) :
    ((inOrder documents).map Document.identity).Nodup :=
  (((inOrder_perm documents).map _).nodup_iff).2 h.distinct

/-- An identity names one document. -/
theorem eq_of_identity (h : Hierarchy documents) {a b : Document} (ha : a ∈ documents)
    (hb : b ∈ documents) (hab : a.identity = b.identity) : a = b :=
  List.inj_on_of_nodup_map h.distinct ha hb hab

/-- What holds of a document if it holds of the one above holds of all documents. -/
theorem induct (h : Hierarchy documents) {motive : Document → Prop}
    (step : ∀ document ∈ documents, (document.parentIdentity ≠ "" → ∃ parent ∈ documents,
      parent.identity = document.parentIdentity ∧ motive parent) → motive document) :
    ∀ document ∈ documents, motive document := by
  intro document hmem
  -- the document above is of a smaller level
  induction hlevel : document.level using Nat.strong_induction_on generalizing document with
  | _ level ih =>
      refine step document hmem fun habove => ?_
      obtain ⟨parent, hparent, hidentity, hless⟩ := h.above document hmem habove
      exact ⟨parent, hparent, hidentity, ih parent.level (hlevel ▸ hless) parent hparent rfl⟩

theorem not_mem_taken (h : Hierarchy documents)
    (hsplit : inOrder documents = taken ++ document :: rest) :
    document.identity ∉ taken.map Document.identity := by
  have hnodup := h.distinct_inOrder
  rw [hsplit, List.map_append, List.map_cons] at hnodup
  exact fun hmem => (List.nodup_append.1 hnodup).2.2 _ hmem _ List.mem_cons_self rfl

/-- What has had its turn does not have it again. -/
theorem not_mem_rest (h : Hierarchy documents)
    (hsplit : inOrder documents = taken ++ document :: rest) {earlier : Document}
    (hearlier : earlier ∈ taken ++ [document]) :
    earlier.identity ∉ rest.map Document.identity := by
  have hnodup := h.distinct_inOrder
  rw [hsplit, List.append_cons, List.map_append] at hnodup
  exact fun hmem => (List.nodup_append.1 hnodup).2.2 _
    (List.mem_map_of_mem hearlier) _ hmem rfl

/-- The document above has its turn before. -/
theorem above_taken (h : Hierarchy documents)
    (hsplit : inOrder documents = taken ++ document :: rest)
    (habove : document.parentIdentity ≠ "") :
    ∃ parent ∈ taken, parent.identity = document.parentIdentity
      ∧ parent.level < document.level := by
  have hmem : document ∈ documents := mem_inOrder.1 (by simp [hsplit])
  obtain ⟨parent, hparent, hidentity, hlevel⟩ := h.above document hmem habove
  exact ⟨parent, mem_before_of_level_lt (pairwise_inOrder documents) hsplit
    (mem_inOrder.2 hparent) hlevel, hidentity, hlevel⟩

end Hierarchy

/-! ## Turns one after another -/

theorem syncAll_singleton (runner : Runner) (publisher : Publisher σ) (document : Document)
    (p : Progress σ) :
    (runner.syncAll publisher [document] p).2 = (runner.syncDocument publisher document p).2.2 :=
  rfl

theorem syncAll_append (runner : Runner) (publisher : Publisher σ) (first second : List Document)
    (p : Progress σ) :
    (runner.syncAll publisher (first ++ second) p).1.results
        = (runner.syncAll publisher first p).1.results
          ++ (runner.syncAll publisher second (runner.syncAll publisher first p).2).1.results
      ∧ (runner.syncAll publisher (first ++ second) p).2
        = (runner.syncAll publisher second (runner.syncAll publisher first p).2).2 := by
  induction first generalizing p with
  | nil => exact ⟨rfl, rfl⟩
  | cons document rest ih =>
      obtain ⟨hresults, hstate⟩ := ih (runner.syncDocument publisher document p).2.2
      simp only [List.cons_append, Runner.syncAll, hresults, hstate, and_self]

/-- Every document has its result, in the order of the turns. -/
theorem results_syncAll (runner : Runner) (publisher : Publisher σ) (documents : List Document)
    (p : Progress σ) :
    (runner.syncAll publisher documents p).1.results.map (fun r => (r.identity, r.title))
      = documents.map fun d => (d.identity, d.title) := by
  induction documents generalizing p with
  | nil => rfl
  | cons document rest ih =>
      simp only [Runner.syncAll, List.map_cons, ih]

/-- An entry stays as it is until its document has its turn. -/
theorem entry_syncAll {documents : List Document} {identity : String}
    (h : identity ∉ documents.map Document.identity) (p : Progress σ) :
    (runner.syncAll publisher documents p).2.ledger.entry identity = p.ledger.entry identity := by
  induction documents generalizing p with
  | nil => rfl
  | cons document rest ih =>
      rw [List.map_cons, List.mem_cons, not_or] at h
      have hstep := takes_syncDocument runner publisher document p
      exact (ih h.2 _).trans (hstep.entry_of_ne h.1)

theorem ascending_syncAll {documents : List Document} {p : Progress σ}
    (hordered : Keyed.Ascending p.ledger.entries) :
    Keyed.Ascending (runner.syncAll publisher documents p).2.ledger.entries := by
  induction documents generalizing p with
  | nil => exact hordered
  | cons document rest ih =>
      exact ih ((takes_syncDocument runner publisher document p).ascending hordered)

/-! ## One turn in a run -/

/-- Whether each document reads in some files as it does in its turn of a run. -/
def Runner.ReadsAs (runner : Runner) (publisher : Publisher σ) (documents : List Document)
    (start : Progress σ) (fs : Files.FileSystem) : Prop :=
  ∀ {taken rest : List Document} {document : Document},
    inOrder documents = taken ++ document :: rest →
    runner.render fs document
      = runner.render (publisher.files (runner.syncAll publisher taken start).2.remote) document

/-- The outcome a report has for an identity. -/
def Report.outcome? (report : Report) (identity : String) : Option Outcome :=
  (report.results.find? fun r => r.identity = identity).map (·.outcome)

/-- With different names, every result is told by the identity of its document. -/
theorem Report.results_eq {report : Report} {documents : List Document}
    (h : report.results.map (fun r => (r.identity, r.title))
      = documents.map fun d => (d.identity, d.title))
    (hdistinct : (documents.map Document.identity).Nodup) (otherwise : Outcome) :
    report.results = documents.map fun d =>
      ⟨d.identity, d.title, (report.outcome? d.identity).getD otherwise⟩ := by
  obtain ⟨results, missing⟩ := report
  simp only at h
  unfold Report.outcome?
  simp only
  clear missing
  induction documents generalizing results with
  | nil => exact List.map_eq_nil_iff.1 h
  | cons document rest ih =>
      obtain ⟨result, results, rfl⟩ : ∃ r rs, results = r :: rs := by
        cases results with
        | nil => cases h
        | cons r rs => exact ⟨r, rs, rfl⟩
      obtain ⟨hfirst, hrest⟩ := List.cons.inj h
      obtain ⟨hidentity, htitle⟩ := Prod.mk.inj hfirst
      obtain ⟨hnew, hdistinct⟩ := List.nodup_cons.1 hdistinct
      rw [List.map_cons]
      refine congrArg₂ List.cons ?_ ((ih hdistinct results hrest).trans ?_)
      · simp only [List.find?_cons, hidentity, decide_true, Option.map_some, Option.getD_some]
        rw [← hidentity, ← htitle]
      -- no later document has the identity of the first
      · refine List.map_congr_left fun other hmem => ?_
        have hne : document.identity ≠ other.identity := fun heq =>
          hnew (heq ▸ List.mem_map_of_mem hmem)
        simp [hidentity, hne]

/-- A document's turn in a run: the state before, the outcome and the state after. -/
structure Turn (runner : Runner) (publisher : Publisher σ) (documents : List Document)
    (start : Progress σ) (document : Document) (p : Progress σ) (outcome : Outcome)
    (q : Progress σ) : Prop where
  takes : Takes runner publisher document p outcome q
  reported : (runner.run publisher documents start).1.outcome? document.identity = some outcome
  /-- Its entry is as it was at the start. -/
  own : p.ledger.entry document.identity = start.ledger.entry document.identity
  /-- Its entry is left as it is at the end. -/
  final : (runner.run publisher documents start).2.ledger.entry document.identity
    = q.ledger.entry document.identity
  /-- The entry of the page above is as it is at the end. -/
  above : document.parentIdentity ≠ "" →
    (runner.run publisher documents start).2.ledger.entry document.parentIdentity
      = p.ledger.entry document.parentIdentity

namespace Turn

variable {documents : List Document} {start p q : Progress σ} {document : Document}
  {outcome : Outcome}

theorem known_eq (h : Turn runner publisher documents start document p outcome q) :
    p.ledger.known document.identity = start.ledger.known document.identity := by
  unfold Ledger.known
  rw [h.own]

/-- The page above has the id it has at the end. -/
theorem pageAbove_eq (h : Turn runner publisher documents start document p outcome q) :
    runner.pageAbove (runner.run publisher documents start).2.ledger document
      = runner.pageAbove p.ledger document := by
  unfold Runner.pageAbove
  split
  · rfl
  · next habove => rw [h.above habove]

/-- The page above is there if it is at the end. -/
theorem anchored_iff (h : Turn runner publisher documents start document p outcome q) :
    Anchored (runner.run publisher documents start).2.ledger document
      ↔ Anchored p.ledger document := by
  unfold Anchored
  by_cases htop : document.parentIdentity = ""
  · simp [htop]
  · rw [h.above htop]

end Turn

/-- A run goes on from a document's turn with the documents after it. -/
theorem run_of_split {documents taken rest : List Document} {document : Document}
    (runner : Runner) (publisher : Publisher σ)
    (hsplit : inOrder documents = taken ++ document :: rest) (start : Progress σ) :
    (runner.run publisher documents start).2
      = (runner.syncAll publisher rest (runner.syncDocument publisher document
          (runner.syncAll publisher taken start).2).2.2).2 := by
  rw [Runner.run, hsplit, (syncAll_append runner publisher taken (document :: rest) start).2]
  rfl

/-- Where a document comes in the order of publication, it has its turn. -/
theorem turn_syncDocument {documents taken rest : List Document} {document : Document}
    (runner : Runner) (publisher : Publisher σ) (h : Hierarchy documents)
    (hsplit : inOrder documents = taken ++ document :: rest) (start : Progress σ) :
    let p := (runner.syncAll publisher taken start).2
    let step := runner.syncDocument publisher document p
    Turn runner publisher documents start document p step.1 step.2.2 := by
  intro p step
  have htakes : Takes runner publisher document p step.1 step.2.2 :=
    takes_syncDocument runner publisher document p
  have hresults := (syncAll_append runner publisher taken (document :: rest) start).1
  have hend := run_of_split runner publisher hsplit start
  refine ⟨htakes, ?_, ?_, ?_, fun habove => ?_⟩
  · -- no earlier result has the identity
    have hnone : (runner.syncAll publisher taken start).1.results.find?
        (fun r => r.identity = document.identity) = none := by
      refine List.find?_eq_none.2 fun r hr hidentity => h.not_mem_taken hsplit ?_
      have hmem := List.mem_map_of_mem (f := fun r : Result => (r.identity, r.title)) hr
      rw [results_syncAll, List.mem_map] at hmem
      obtain ⟨earlier, hearlier, heq⟩ := hmem
      rw [← of_decide_eq_true hidentity, ← (Prod.mk.inj heq).1]
      exact List.mem_map_of_mem hearlier
    rw [Report.outcome?, Runner.run, hsplit, hresults, List.find?_append, hnone]
    simp [Runner.syncAll, step, p]
  · exact entry_syncAll (h.not_mem_taken hsplit) start
  · rw [hend]
    exact entry_syncAll (h.not_mem_rest hsplit (by simp)) _
  · obtain ⟨parent, hparent, hidentity, hlevel⟩ := h.above_taken hsplit habove
    have hmem : ∀ d ∈ taken ++ [document], d ∈ documents := fun d hd =>
      mem_inOrder.1 (by rw [hsplit, List.append_cons]; exact List.mem_append_left _ hd)
    -- the document above is another one, so this turn leaves its entry alone
    have hne : document.parentIdentity ≠ document.identity := by
      intro heq
      have hsame := h.eq_of_identity (hmem parent (List.mem_append_left _ hparent))
        (hmem document (by simp)) (hidentity.trans heq)
      rw [hsame] at hlevel
      exact lt_irrefl _ hlevel
    have hlater := h.not_mem_rest hsplit (List.mem_append_left _ hparent)
    rw [hidentity] at hlater
    rw [hend, entry_syncAll hlater, htakes.entry_of_ne hne]

/-- That turn, however it goes. -/
theorem turn_of_split {documents taken rest : List Document} {document : Document}
    (runner : Runner) (publisher : Publisher σ) (h : Hierarchy documents)
    (hsplit : inOrder documents = taken ++ document :: rest) (start : Progress σ) :
    ∃ outcome q, Turn runner publisher documents start document
      (runner.syncAll publisher taken start).2 outcome q :=
  ⟨_, _, turn_syncDocument runner publisher h hsplit start⟩

/-- Every document has its turn. -/
theorem exists_turn {documents : List Document} {document : Document} (runner : Runner)
    (publisher : Publisher σ) (h : Hierarchy documents) (hmem : document ∈ documents)
    (start : Progress σ) :
    ∃ taken rest outcome q, inOrder documents = taken ++ document :: rest
      ∧ Turn runner publisher documents start document (runner.syncAll publisher taken start).2
        outcome q := by
  obtain ⟨taken, rest, hsplit⟩ := List.append_of_mem (mem_inOrder.2 hmem)
  obtain ⟨outcome, q, hturn⟩ := turn_of_split runner publisher h hsplit start
  exact ⟨taken, rest, outcome, q, hsplit, hturn⟩

/-! ## Documents to try runs with -/

/-- A page without a text of its own. -/
def blank (identity parentIdentity : String) (level : Nat) : Document where
  source := .virtual
  identity := identity
  title := identity
  isIndex := true
  parentTitle := ""
  parentIdentity := parentIdentity
  level := level
  attachments := []

end WikiPress.Sync
