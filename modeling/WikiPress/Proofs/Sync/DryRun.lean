import Mathlib.Data.List.Perm.Subperm
import WikiPress.Proofs.Sync.Forecast
import WikiPress.Proofs.Sync.PageTree
import WikiPress.Proofs.Sync.Verdict

/-!
# WikiPress.Proofs.Sync.DryRun

What a dry run leaves behind in the ledger.

Design points:

* A dry run hands no draft over and changes nothing that the ledger says. But asking for an
  entry makes it, and a dry run asks like any other: each document that can be read asks for
  its own entry and for that of the document above (`Runner.LooksUp`).
* So a ledger after a dry run is one before it with empty entries put in (`Padded`). One turn
  puts in what its document looks up, and a run what all of them do (`padded_syncAll`).
* A ledger is as it was if and only if nothing was put in. The number of its entries and the
  document of its state file tell (`Padded.unchanged_iff`).
-/

namespace WikiPress.Ledger

/-! ## Ledgers told apart -/

/-- Asking for an entry makes it, if it names a document. -/
theorem has_entryFor_iff (ledger : Ledger) (identity other : String) :
    (ledger.entryFor identity).2.Has other
      ↔ ledger.Has other ∨ other = identity ∧ identity ≠ "" := by
  by_cases hnamed : identity = ""
  · subst hnamed
    exact (or_iff_left fun hother => hother.2 rfl).symm
  · rw [has_entryFor hnamed, and_iff_left hnamed]

/-- Entries are told by the document of their state file. -/
theorem encode_inj {entries others : Entries} (h : Keyed.Ascending entries)
    (h' : Keyed.Ascending others) : encode entries = encode others ↔ entries = others := by
  refine ⟨fun hsame => ?_, congrArg encode⟩
  have hread := decode_encode h
  rw [hsame, decode_encode h'] at hread
  exact (Option.some.inj hread).symm

end WikiPress.Ledger

namespace WikiPress.Sync

open WikiPress.Files (FileSystem)

variable {σ : Type} {runner : Runner}

/-! ## What a dry run asks for -/

/-- Whether a document's turn in a dry run asks for the entry of an identity. -/
structure Runner.LooksUp (runner : Runner) (fs : FileSystem) (document : Document)
    (identity : String) : Prop where
  reads : runner.Reads fs document
  named : identity ≠ ""
  asked : identity = document.identity ∨ identity = document.parentIdentity

/-- Whether a ledger differs from an earlier one in empty entries alone, those that documents
look up. -/
structure Padded (runner : Runner) (fs : FileSystem) (documents : List Document)
    (before after : Ledger) : Prop where
  same : before.Same after
  has : ∀ identity, after.Has identity
    ↔ before.Has identity ∨ ∃ document ∈ documents, runner.LooksUp fs document identity

/-- A dry run stops where a draft would be handed over. -/
theorem publishPage_of_dry (hdry : runner.dryRun = true) (publisher : Publisher σ)
    (document : Document) (body parentId : String) (p : Progress σ) :
    (runner.publishPage publisher document body parentId p).2
      = ⟨(p.ledger.entryFor document.identity).2, p.remote⟩ := by
  unfold Runner.publishPage
  simp only [hdry, if_true]
  split <;> rfl

/-- In its turn a document looks up its entry and that of the document above. -/
theorem has_syncDocument_of_dry (hdry : runner.dryRun = true) (publisher : Publisher σ)
    (document : Document) (p : Progress σ) (identity : String) :
    (runner.syncDocument publisher document p).2.2.ledger.Has identity
      ↔ p.ledger.Has identity
        ∨ runner.LooksUp (publisher.files p.remote) document identity := by
  unfold Runner.syncDocument
  simp only
  split
  · next e hpage =>
      have hunread : ¬ runner.LooksUp (publisher.files p.remote) document identity := by
        rintro ⟨⟨page, hread⟩, -, -⟩
        rw [hpage] at hread
        cases hread
      exact (or_iff_left hunread).symm
  · next page hpage =>
      have habove := has_parentId runner document p.ledger identity
      obtain ⟨asked, -, ⟨hparent, -⟩ | ⟨-, hreal, -⟩⟩ := parentId_cases runner document p.ledger
      · have hlooks : runner.LooksUp (publisher.files p.remote) document identity
            ↔ identity ≠ "" ∧ (identity = document.identity
              ∨ identity = document.parentIdentity) :=
          ⟨fun h => ⟨h.named, h.asked⟩, fun h => ⟨⟨page, hpage⟩, h.1, h.2⟩⟩
        rw [hparent] at habove ⊢
        simp only [publishPage_of_dry hdry, Ledger.has_entryFor_iff, habove, hlooks]
        grind
      · rw [hdry] at hreal
        cases hreal

/-- A turn of a dry run puts in what its document looks up. -/
theorem padded_syncDocument (hdry : runner.dryRun = true) (publisher : Publisher σ)
    (document : Document) (p : Progress σ) :
    Padded runner (publisher.files p.remote) [document] p.ledger
        (runner.syncDocument publisher document p).2.2.ledger
      ∧ (runner.syncDocument publisher document p).2.2.remote = p.remote := by
  obtain ⟨-, hsame, hremote⟩ := (takes_syncDocument runner publisher document p).eq_foresee hdry
  refine ⟨⟨hsame, fun identity => ?_⟩, hremote⟩
  simp [has_syncDocument_of_dry hdry]

/-- A dry run puts in what its documents look up, and tells the publisher nothing. -/
theorem padded_syncAll (hdry : runner.dryRun = true) (publisher : Publisher σ)
    (documents : List Document) (p : Progress σ) :
    Padded runner (publisher.files p.remote) documents p.ledger
        (runner.syncAll publisher documents p).2.ledger
      ∧ (runner.syncAll publisher documents p).2.remote = p.remote := by
  induction documents generalizing p with
  | nil => exact ⟨⟨.refl _, by simp [Runner.syncAll]⟩, rfl⟩
  | cons document rest ih =>
      obtain ⟨hstep, hremote⟩ := padded_syncDocument hdry publisher document p
      obtain ⟨hrest, hremotes⟩ := ih (runner.syncDocument publisher document p).2.2
      rw [hremote] at hrest
      refine ⟨⟨hstep.same.trans hrest.same, fun identity => ?_⟩, hremotes.trans hremote⟩
      simp only [Runner.syncAll, hrest.has, hstep.has, List.mem_cons, List.not_mem_nil, or_false,
        exists_eq_left, exists_eq_or_imp, or_assoc]

/-! ## Whether anything was put in -/

namespace Padded

variable {fs : FileSystem} {documents order : List Document} {before after : Ledger}

theorem of_perm (h : Padded runner fs order before after) (hperm : order.Perm documents) :
    Padded runner fs documents before after :=
  ⟨h.same, fun identity => by simp only [h.has, hperm.mem_iff]⟩

theorem keys_subset (h : Padded runner fs documents before after) :
    before.entries.map Prod.fst ⊆ after.entries.map Prod.fst := fun identity hmem =>
  Keyed.isSome_find?.1 ((h.has identity).2 (Or.inl (Keyed.isSome_find?.2 hmem)))

/-- Entries that were put in are counted. -/
theorem has_of_length_eq (h : Padded runner fs documents before after)
    (hordered : Keyed.Ascending before.entries)
    (hlength : after.entries.length = before.entries.length) (identity : String) :
    after.Has identity ↔ before.Has identity := by
  have hkeys : (before.entries.map Prod.fst).Perm (after.entries.map Prod.fst) :=
    (List.subperm_of_subset hordered.nodup h.keys_subset).perm_of_length_le (by simp [hlength])
  unfold Ledger.Has
  rw [Keyed.isSome_find?, Keyed.isSome_find?, hkeys.mem_iff]

theorem entries_eq (h : Padded runner fs documents before after)
    (hordered : Keyed.Ascending before.entries)
    (hhas : ∀ identity, after.Has identity ↔ before.Has identity) :
    after.entries = before.entries :=
  Keyed.ext (h.same.ascending hordered) hordered fun identity =>
    Ledger.find?_eq_of_entry (hhas identity) (h.same.entry identity)

/-- Nothing was put in where all that is looked up was there. -/
theorem has_iff (h : Padded runner fs documents before after) :
    (∀ identity, after.Has identity ↔ before.Has identity)
      ↔ ∀ document ∈ documents, ∀ identity, runner.LooksUp fs document identity →
        before.Has identity := by
  constructor
  · intro hhas document hmem identity hlooks
    exact (hhas identity).1 ((h.has identity).2 (Or.inr ⟨document, hmem, hlooks⟩))
  · intro hknown identity
    rw [h.has, or_iff_left_of_imp]
    rintro ⟨document, hmem, hlooks⟩
    exact hknown document hmem identity hlooks

/-- The entries, their number and the document of the state file all tell whether something was
put in. -/
theorem unchanged_iff (h : Padded runner fs documents before after)
    (hordered : Keyed.Ascending before.entries) :
    let known := ∀ document ∈ documents, ∀ identity, runner.LooksUp fs document identity →
      before.Has identity
    (after.entries = before.entries ↔ known)
    ∧ (after.entries.length = before.entries.length ↔ known)
    ∧ (Ledger.encode after.entries = Ledger.encode before.entries ↔ known) := by
  intro known
  have hentries : after.entries = before.entries ↔ known :=
    ⟨fun hsame => h.has_iff.1 fun identity => by unfold Ledger.Has; rw [hsame],
      fun hknown => h.entries_eq hordered (h.has_iff.2 hknown)⟩
  refine ⟨hentries, ⟨fun hlength => ?_, fun hknown => ?_⟩, ?_⟩
  · exact h.has_iff.1 (h.has_of_length_eq hordered hlength)
  · rw [hentries.2 hknown]
  · rw [Ledger.encode_inj (h.same.ascending hordered) hordered, hentries]

end Padded

/-- **A dry run hands nothing over and says nothing new, but it leaves empty entries behind.**
An identity has an entry afterwards if it had one before, or if it is that of a document that
can be read or of the document above one. So the ledger, the number of its entries and the
document of its state file are what they were if and only if all of these were known. -/
theorem ledger_after_dry_run (hdry : runner.dryRun = true) (publisher : Publisher σ)
    (documents : List Document) {start : Progress σ}
    (hordered : Keyed.Ascending start.ledger.entries) :
    let done := (runner.run publisher documents start).2.ledger
    let handed := (runner.run publisher.watched documents
      ⟨start.ledger, (start.remote, [])⟩).2.remote
    let looksUp := runner.LooksUp (publisher.files start.remote)
    let known := ∀ document ∈ documents, ∀ identity, looksUp document identity →
      start.ledger.Has identity
    handed = (start.remote, [])
    ∧ (∀ identity, done.entry identity = start.ledger.entry identity)
    ∧ (∀ identity, done.Has identity
      ↔ start.ledger.Has identity ∨ ∃ document ∈ documents, looksUp document identity)
    ∧ (done.entries = start.ledger.entries ↔ known)
    ∧ (done.entries.length = start.ledger.entries.length ↔ known)
    ∧ (Ledger.encode done.entries = Ledger.encode start.ledger.entries ↔ known) := by
  intro done handed looksUp known
  have hhanded : handed = (start.remote, []) :=
    (padded_syncAll hdry publisher.watched (inOrder documents) _).2
  have hpadded : Padded runner (publisher.files start.remote) documents start.ledger done :=
    (padded_syncAll hdry publisher (inOrder documents) start).1.of_perm (inOrder_perm documents)
  exact ⟨hhanded, hpadded.same.entry, hpadded.has, hpadded.unchanged_iff hordered⟩

/-- After a dry run over one new page the ledger has an entry, and its state file another
document. -/
theorem ledger_after_dry_run_anew :
    let publisher := refusing { root := .directory [], workingDirectory := [] } []
    let runner : Runner := { dryRun := true }
    let done := (runner.run publisher [blank "a.md" "" 0] anew).2.ledger
    runner.dryRun = true ∧ Keyed.Ascending anew.ledger.entries
    ∧ (runner.run publisher.watched [blank "a.md" "" 0]
      ⟨anew.ledger, (anew.remote, [])⟩).2.remote = (anew.remote, [])
    ∧ ¬ anew.ledger.Has "a.md" ∧ done.Has "a.md" ∧ done.entry "a.md" = {}
    ∧ done.entries.length ≠ anew.ledger.entries.length
    ∧ Ledger.encode done.entries ≠ Ledger.encode anew.ledger.entries := by
  intro publisher runner done
  have hordered : Keyed.Ascending anew.ledger.entries := Keyed.ascending_nil
  have hdry : runner.dryRun = true := rfl
  obtain ⟨hhanded, hentry, hhas, -, hlength, hdocument⟩ :=
    ledger_after_dry_run hdry publisher [blank "a.md" "" 0] hordered
  have hmissing : ¬ anew.ledger.Has "a.md" := by simp [Ledger.Has, anew]
  -- a page without a text can always be read
  have hlooks : runner.LooksUp (publisher.files anew.remote) (blank "a.md" "" 0) "a.md" :=
    ⟨⟨_, rfl⟩, by decide, Or.inl rfl⟩
  have hunknown : ¬ ∀ document ∈ [blank "a.md" "" 0], ∀ identity,
      runner.LooksUp (publisher.files anew.remote) document identity → anew.ledger.Has identity :=
    fun hknown => hmissing (hknown _ (List.mem_singleton_self _) _ hlooks)
  exact ⟨hdry, hordered, hhanded, hmissing,
    (hhas _).2 (Or.inr ⟨_, List.mem_singleton_self _, hlooks⟩), hentry _,
    fun hsame => hunknown (hlength.1 hsame), fun hsame => hunknown (hdocument.1 hsame)⟩

end WikiPress.Sync
