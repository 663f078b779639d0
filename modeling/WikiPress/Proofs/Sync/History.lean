import Mathlib.Logic.Relation
import WikiPress.Proofs.Ledger.Store
import WikiPress.Proofs.Sync.Publisher

/-!
# WikiPress.Proofs.Sync.History

The ledger mirrors the publisher over whole histories.

A history is any row of runs, dry ones and real ones, of saving the ledger and loading it
again, and of changes of the world outside. At every point of it the ledger says of each
document what the last draft that was accepted for it says, so a page is created once and
keeps its id.

Design points:

* What was accepted is kept beside the publisher's own state by the publisher itself
  (`Publisher.recording`), so that it cannot depend on the ledger. A run does not see the
  record (`forget_run`).
* A run takes the documents of a level in any order, and may ask for the id of a page above
  long before it publishes the page below. `Step.parent` and `Step.page` are these single
  actions, with whatever body and parent; a whole run is a row of them.
* Every action comes down to one of two events (`Event`): nothing is said that was not said
  before, or one draft is accepted and the entry of its document renewed. The invariant is
  proved for these.
-/

namespace WikiPress.Sync

open Relation (ReflTransGen)
open WikiPress.Files (FileSystem)

variable {σ : Type}

/-! ## What was accepted -/

/-- A draft and the id its page was given. -/
abbrev Accepted := Draft × String

/-- The state of a run whose publisher is recorded. -/
abbrev Point (σ : Type) := Progress (σ × List Accepted)

/-- The publisher, with a record of the drafts it accepted, the last one first. -/
def Publisher.recording (publisher : Publisher σ) : Publisher (σ × List Accepted) where
  files state := publisher.files state.1
  publish draft state :=
    match publisher.publish draft state.1 with
    | (.ok id, remote) => (.ok id, (remote, (draft, id) :: state.2))
    | (.error e, remote) => (.error e, (remote, state.2))

/-- The last draft that was accepted for a document. -/
def lastAccepted (identity : String) (accepted : List Accepted) : Option Accepted :=
  accepted.find? fun a => a.1.identity = identity

/-- The drafts of new pages that were accepted for a document. -/
def creations (identity : String) (accepted : List Accepted) : List Accepted :=
  accepted.filter fun a => a.1.identity = identity ∧ a.1.pageId = none

/-- The entry that an accepted draft makes for its document. -/
def entryOf (a : Accepted) : Entry :=
  { id := a.2, hash := Digest.ofText a.1.body, parentId := a.1.parentId }

/-- Whether the entry of each document is that of the last draft accepted for it. A document
none was accepted for has no entry or an empty one. -/
def Mirrors (accepted : List Accepted) (ledger : Ledger) : Prop :=
  ∀ identity, match lastAccepted identity accepted with
    | none => Keyed.find? identity ledger.entries = none
        ∨ Keyed.find? identity ledger.entries = some {}
    | some a => Keyed.find? identity ledger.entries = some (entryOf a)

/-! ## Runs without the record -/

/-- The state of the run without the record. -/
def Point.forget (p : Point σ) : Progress σ := ⟨p.ledger, p.remote.1⟩

/-- What a recorded publisher answers does not depend on the record. -/
theorem recording_answersAs (publisher : Publisher σ) :
    publisher.recording.AnswersAs publisher Prod.fst where
  files _ := rfl
  answer draft state := by
    simp only [Publisher.recording]
    split <;> next hanswer => rw [hanswer]
  state draft state := by
    simp only [Publisher.recording]
    split <;> next hanswer => rw [hanswer]

/-- A run whose publisher is recorded does what it does without the record. -/
theorem forget_run (publisher : Publisher σ) (runner : Runner) (documents : List Document)
    (p : Point σ) :
    (runner.run publisher.recording documents p).1 = (runner.run publisher documents p.forget).1
      ∧ Point.forget (runner.run publisher.recording documents p).2
        = (runner.run publisher documents p.forget).2 :=
  run_seen (recording_answersAs publisher) runner documents p

/-! ## Histories -/

/-- What a history has come to. -/
structure Session (σ : Type) where
  now : Point σ
  /-- The files the ledger was last saved in, and what was accepted by then. -/
  saved : Option (FileSystem × List Accepted) := none

/-- One action in the history of a ledger and a publisher. A ledger that was saved is loaded
again only from files in which `found` says its path is good. -/
inductive Step (publisher : Publisher σ) (found : FileSystem → String → Prop) :
    Session σ → Session σ → Prop
  /-- A run over documents. -/
  | run (runner : Runner) {documents : List Document} {s : Session σ} :
      (∀ document ∈ documents, document.identity ≠ "") →
      Step publisher found s
        { s with now := (runner.run publisher.recording documents s.now).2 }
  /-- A run asks for the id of the page above a document. -/
  | parent (runner : Runner) (document : Document) {s : Session σ} :
      Step publisher found s
        { s with now := { s.now with ledger := (runner.parentId document s.now.ledger).2 } }
  /-- A run publishes a document's page, unless it is as published before. -/
  | page (runner : Runner) {document : Document} (body parentId : String) {s : Session σ} :
      document.identity ≠ "" →
      Step publisher found s
        { s with now := (runner.publishPage publisher.recording document body parentId s.now).2 }
  /-- The ledger is saved. -/
  | save {fs saved : FileSystem} {s : Session σ} :
      s.now.ledger.persist fs = (.ok (), saved) →
      Step publisher found s { s with saved := some (saved, s.now.remote.2) }
  /-- The ledger is loaded. Nothing was accepted since it was saved. -/
  | load {fs : FileSystem} {s : Session σ} :
      s.saved = some (fs, s.now.remote.2) → found fs s.now.ledger.path →
      Step publisher found s
        { s with now := { s.now with ledger := (Ledger.load fs s.now.ledger.path).ledger } }
  /-- The publisher's side changes by itself, files included. -/
  | outside (remote : σ) {s : Session σ} :
      Step publisher found s { s with now := { s.now with remote := (remote, s.now.remote.2) } }

/-- The start of a history: an empty ledger, and nothing accepted. -/
def start (path : String) (remote : σ) : Session σ where
  now := ⟨{ path }, (remote, [])⟩

/-! ## Events -/

/-- Nothing happens that the ledger would tell. -/
structure Quiet (p q : Point σ) : Prop where
  accepted : q.remote.2 = p.remote.2
  entries : ∀ identity, q.ledger.entry identity = p.ledger.entry identity
  ascending : Keyed.Ascending p.ledger.entries → Keyed.Ascending q.ledger.entries
  path : q.ledger.path = p.ledger.path

/-- A draft is accepted, and the entry of its document renewed. -/
structure Accepts (p q : Point σ) (a : Accepted) : Prop where
  accepted : q.remote.2 = a :: p.remote.2
  own : q.ledger.entry a.1.identity = entryOf a
  others : ∀ identity, identity ≠ a.1.identity →
    q.ledger.entry identity = p.ledger.entry identity
  ascending : Keyed.Ascending p.ledger.entries → Keyed.Ascending q.ledger.entries
  path : q.ledger.path = p.ledger.path
  /-- The page has an id. -/
  named : a.2 ≠ ""
  /-- It is the one the document's page had before. -/
  kept : (p.ledger.entry a.1.identity).id ≠ "" → a.2 = (p.ledger.entry a.1.identity).id
  /-- The page is new only if the document had none. -/
  new : a.1.pageId = none → (p.ledger.entry a.1.identity).id = ""

/-- What an action comes down to. -/
inductive Event (p q : Point σ) : Prop
  | quiet : Quiet p q → Event p q
  | accepts (a : Accepted) : Accepts p q a → Event p q

/-! ## The actions of a run -/

section Run

variable {publisher : Publisher σ} {p : Point σ}

/-- Asking for a handle is no event. -/
theorem quiet_entryFor (p : Point σ) (identity : String) :
    Quiet p { p with ledger := (p.ledger.entryFor identity).2 } where
  accepted := rfl
  entries := Ledger.entry_entryFor p.ledger identity
  ascending h := Ledger.ascending_entryFor h identity
  path := Ledger.path_entryFor p.ledger identity

theorem quiet_parentId (runner : Runner) (document : Document)
    (p : Point σ) :
    Quiet p { p with ledger := (runner.parentId document p.ledger).2 } := by
  have hledger : (runner.parentId document p.ledger).2 = p.ledger
      ∨ (runner.parentId document p.ledger).2
        = (p.ledger.entryFor document.parentIdentity).2 := by
    unfold Runner.parentId
    split
    · exact Or.inl rfl
    · simp only
      split <;> exact Or.inr rfl
  rcases hledger with h | h
  · rw [h]
    exact ⟨rfl, fun _ => rfl, id, rfl⟩
  · rw [h]
    exact quiet_entryFor p _

theorem recording_error {draft : Draft} {state after : σ × List Accepted} {e : PublishError}
    (h : publisher.recording.publish draft state = (.error e, after)) :
    ∃ remote, after = (remote, state.2) := by
  unfold Publisher.recording at h
  simp only at h
  split at h
  · cases h
  · cases h
    exact ⟨_, rfl⟩

theorem recording_ok {draft : Draft} {state after : σ × List Accepted} {id : String}
    (h : publisher.recording.publish draft state = (.ok id, after)) :
    ∃ remote, publisher.publish draft state.1 = (.ok id, remote)
      ∧ after = (remote, (draft, id) :: state.2) := by
  unfold Publisher.recording at h
  simp only at h
  split at h
  · next answer =>
      cases h
      exact ⟨_, answer, rfl⟩
  · cases h

/-- A draft for a document with the entry it has. -/
theorem accepts_commit (hpublisher : publisher.KeepsIds) {draft : Draft} {id : String}
    {remote after : σ} (hidentity : draft.identity ≠ "")
    (hpageId : draft.pageId = if (p.ledger.entry draft.identity).isNew then none
      else some (p.ledger.entry draft.identity).id)
    (hpublish : publisher.publish draft remote = (.ok id, after)) :
    Accepts p ⟨(p.ledger.entryFor draft.identity).2.commit (p.ledger.entryFor draft.identity).1
      (entryOf (draft, id)), (after, (draft, id) :: p.remote.2)⟩ (draft, id) := by
  have hok : (publisher.publish draft remote).1 = .ok id := by rw [hpublish]
  rw [Ledger.entryFor_handle hidentity]
  -- the draft names a page if and only if the entry does
  have hnew : draft.pageId = none → (p.ledger.entry draft.identity).id = "" := by
    intro hnone
    rw [hpageId] at hnone
    split at hnone
    · next hisNew => simpa [Entry.isNew] using hisNew
    · cases hnone
  have hkept : (p.ledger.entry draft.identity).id ≠ "" →
      id = (p.ledger.entry draft.identity).id := by
    intro hid
    have hisNew : (p.ledger.entry draft.identity).isNew = false := by
      simpa [Entry.isNew] using hid
    rw [hisNew] at hpageId
    exact hpublisher.kept hok hpageId
  refine ⟨rfl, ?_, fun identity hne => ?_, fun h => ?_, Ledger.path_entryFor _ _, ?_, hkept, hnew⟩
  · rw [Ledger.entry_commit, if_pos rfl]
  · rw [Ledger.entry_commit, if_neg hne, Ledger.entry_entryFor]
  · exact Ledger.ascending_commit (Ledger.ascending_entryFor h _) _ _
  · by_cases hid : (p.ledger.entry draft.identity).id = ""
    · have hisNew : (p.ledger.entry draft.identity).isNew = true := by
        simp [Entry.isNew, hid]
      rw [hisNew] at hpageId
      exact hpublisher.named hok hpageId
    · have hsame := hkept hid
      intro hempty
      exact hid (hsame.symm.trans hempty)

theorem event_publishPage (hpublisher : publisher.KeepsIds) (runner : Runner)
    {document : Document} (hidentity : document.identity ≠ "") (body parentId : String)
    (p : Point σ) :
    Event p (runner.publishPage publisher.recording document body parentId p).2 := by
  unfold Runner.publishPage
  simp only
  split
  · exact .quiet (quiet_entryFor p document.identity)
  split
  · exact .quiet (quiet_entryFor p document.identity)
  · have hentry : (p.ledger.entryFor document.identity).2.read
        (p.ledger.entryFor document.identity).1 = p.ledger.entry document.identity := by
      rw [Ledger.entryFor_handle hidentity]
      exact Ledger.entry_entryFor p.ledger _ _
    rw [hentry]
    split
    · next e after hanswer =>
        obtain ⟨remote, rfl⟩ := recording_error hanswer
        have hquiet := quiet_entryFor p document.identity
        exact .quiet ⟨rfl, hquiet.entries, hquiet.ascending, hquiet.path⟩
    · next id after hanswer =>
        obtain ⟨remote, hpublish, rfl⟩ := recording_ok hanswer
        exact .accepts _ (accepts_commit hpublisher hidentity rfl hpublish)

theorem events_syncDocument (hpublisher : publisher.KeepsIds) (runner : Runner)
    {document : Document} (hidentity : document.identity ≠ "")
    (p : Point σ) :
    ReflTransGen Event p (runner.syncDocument publisher.recording document p).2.2 := by
  have hquiet := quiet_parentId runner document p
  unfold Runner.syncDocument
  simp only
  split
  · exact .refl
  · next page _ =>
      split
      · next e ledger hparent =>
          rw [hparent] at hquiet
          exact .single (.quiet hquiet)
      · next parentId ledger hparent =>
          rw [hparent] at hquiet
          -- the entry of the page above is asked for first
          have hasked : ReflTransGen Event p { p with ledger } := .single (.quiet hquiet)
          exact hasked.tail (event_publishPage hpublisher runner hidentity page.body parentId _)

/-- A run is a row of events, document by document. -/
theorem events_syncAll (hpublisher : publisher.KeepsIds) (runner : Runner)
    (documents : List Document) (h : ∀ document ∈ documents, document.identity ≠ "")
    (p : Point σ) :
    ReflTransGen Event p (runner.syncAll publisher.recording documents p).2 := by
  induction documents generalizing p with
  | nil => exact .refl
  | cons document rest ih =>
      obtain ⟨hfirst, hrest⟩ := List.forall_mem_cons.1 h
      exact (events_syncDocument hpublisher runner hfirst p).trans (ih hrest _)

theorem events_run (hpublisher : publisher.KeepsIds) (runner : Runner)
    (documents : List Document) (h : ∀ document ∈ documents, document.identity ≠ "")
    (p : Point σ) :
    ReflTransGen Event p (runner.run publisher.recording documents p).2 := by
  refine events_syncAll hpublisher runner (inOrder documents) (fun document hdocument => ?_) p
  exact h document (List.mem_mergeSort.1 hdocument)

end Run

/-! ## The invariant -/

/-- A ledger and the accepted drafts agree. -/
structure Faithful (accepted : List Accepted) (ledger : Ledger) : Prop where
  ascending : Keyed.Ascending ledger.entries
  /-- Every accepted draft has a page. -/
  named : ∀ a ∈ accepted, a.2 ≠ ""
  entries : ∀ identity,
    ledger.entry identity = ((lastAccepted identity accepted).map entryOf).getD {}
  single : ∀ identity, (creations identity accepted).length ≤ 1

/-- A document with no page has no accepted draft. -/
theorem Faithful.lastAccepted_eq_none {accepted : List Accepted} {ledger : Ledger}
    (h : Faithful accepted ledger) {identity : String} (hid : (ledger.entry identity).id = "") :
    lastAccepted identity accepted = none := by
  cases hlast : lastAccepted identity accepted with
  | none => rfl
  | some a =>
      have hentry := h.entries identity
      rw [hlast] at hentry
      rw [hentry] at hid
      exact absurd hid (h.named a (List.mem_of_find?_eq_some hlast))

theorem creations_of_lastAccepted {identity : String} {accepted : List Accepted}
    (h : lastAccepted identity accepted = none) : creations identity accepted = [] := by
  refine List.filter_eq_nil_iff.2 fun a ha hcreation => ?_
  have hother := List.find?_eq_none.1 h a ha
  simp only [decide_eq_true_eq] at hother hcreation
  exact hother hcreation.1

theorem Faithful.mirrors {accepted : List Accepted} {ledger : Ledger}
    (h : Faithful accepted ledger) : Mirrors accepted ledger := by
  intro identity
  have hentry := h.entries identity
  cases hlast : lastAccepted identity accepted with
  | none =>
      rw [hlast] at hentry
      exact Ledger.find?_of_entry_eq hentry
  | some a =>
      rw [hlast] at hentry
      have hid : (ledger.entry identity).id ≠ "" := by
        rw [hentry]
        exact h.named a (List.mem_of_find?_eq_some hlast)
      exact (Ledger.find?_of_entry hid).trans (congrArg some hentry)

section Events

variable {p q : Point σ}

theorem Faithful.quiet (h : Quiet p q) (hp : Faithful p.remote.2 p.ledger) :
    Faithful q.remote.2 q.ledger where
  ascending := h.ascending hp.ascending
  named := by
    rw [h.accepted]
    exact hp.named
  entries identity := by
    rw [h.accepted, h.entries]
    exact hp.entries identity
  single := by
    rw [h.accepted]
    exact hp.single

theorem Faithful.accepts {a : Accepted} (h : Accepts p q a)
    (hp : Faithful p.remote.2 p.ledger) : Faithful q.remote.2 q.ledger where
  ascending := h.ascending hp.ascending
  named := by
    rw [h.accepted]
    exact List.forall_mem_cons.2 ⟨h.named, hp.named⟩
  entries identity := by
    rw [h.accepted, lastAccepted, List.find?_cons]
    by_cases hown : identity = a.1.identity
    · subst hown
      simpa using h.own
    · have hne : decide (a.1.identity = identity) = false := by
        simpa using Ne.symm hown
      rw [hne, h.others identity hown]
      exact hp.entries identity
  single identity := by
    rw [h.accepted, creations, List.filter_cons]
    split
    · next hcreation =>
        simp only [decide_eq_true_eq] at hcreation
        obtain ⟨rfl, hpageId⟩ := hcreation
        -- a page is created only where there was none
        have hnone := hp.lastAccepted_eq_none (h.new hpageId)
        have hempty := creations_of_lastAccepted hnone
        rw [creations] at hempty
        rw [hempty]
        exact Nat.le_refl 1
    · exact hp.single identity

/-- The invariant holds along every row of events. -/
theorem Faithful.events (h : ReflTransGen Event p q) (hp : Faithful p.remote.2 p.ledger) :
    Faithful q.remote.2 q.ledger := by
  induction h with
  | refl => exact hp
  | tail _ hevent ih =>
      cases hevent with
      | quiet hquiet => exact ih.quiet hquiet
      | accepts a haccepts => exact ih.accepts haccepts

theorem path_of_events (h : ReflTransGen Event p q) : q.ledger.path = p.ledger.path := by
  induction h with
  | refl => rfl
  | tail _ hevent ih =>
      cases hevent with
      | quiet hquiet => exact hquiet.path.trans ih
      | accepts a haccepts => exact haccepts.path.trans ih

/-- A page keeps its id. -/
theorem id_of_event (h : Event p q) {identity : String}
    (hid : (p.ledger.entry identity).id ≠ "") :
    (q.ledger.entry identity).id = (p.ledger.entry identity).id := by
  cases h with
  | quiet h => rw [h.entries]
  | accepts a h =>
      by_cases hown : identity = a.1.identity
      · subst hown
        rw [h.own]
        exact h.kept hid
      · rw [h.others identity hown]

theorem id_of_events (h : ReflTransGen Event p q) {identity : String}
    (hid : (p.ledger.entry identity).id ≠ "") :
    (q.ledger.entry identity).id = (p.ledger.entry identity).id := by
  induction h with
  | refl => rfl
  | tail _ hevent ih =>
      have hstill := id_of_event hevent (ih.symm ▸ hid)
      exact hstill.trans ih

end Events

/-! ## Steps -/

/-- The ledger in use agrees with what was accepted, and the one that was saved with what
was accepted by then. -/
structure Consistent (path : String) (s : Session σ) : Prop where
  now : Faithful s.now.remote.2 s.now.ledger
  atPath : s.now.ledger.path = path
  saved : ∀ {fs : FileSystem} {accepted : List Accepted}, s.saved = some (fs, accepted) →
    Files.Reaches fs path → Faithful accepted (Ledger.load fs path).ledger

theorem consistent_start (path : String) (remote : σ) : Consistent path (start path remote) where
  now :=
    { ascending := Keyed.ascending_nil
      named := fun _ h => absurd h List.not_mem_nil
      entries := fun _ => rfl
      single := fun _ => Nat.zero_le _ }
  atPath := rfl
  saved h := by cases h

section Steps

variable {publisher : Publisher σ} {path : String} {s t : Session σ}

/-- A step is a row of events. -/
theorem events_of_step (hpublisher : publisher.KeepsIds) (hs : Consistent path s)
    (h : Step publisher Files.Reaches s t) : ReflTransGen Event s.now t.now := by
  cases h with
  | run runner hdocuments => exact events_run hpublisher runner _ hdocuments _
  | parent runner document => exact .single (.quiet (quiet_parentId runner document _))
  | page runner body parentId hidentity =>
      exact .single (event_publishPage hpublisher runner hidentity body parentId _)
  | save hsaved => exact .refl
  | @load fs _ hsaved hreaches =>
      rw [hs.atPath] at hreaches
      have hloaded := hs.saved hsaved hreaches
      rw [← hs.atPath] at hloaded
      -- both ledgers agree with the same drafts, so they say the same
      have hentries : ∀ identity, (Ledger.load fs s.now.ledger.path).ledger.entry identity
          = s.now.ledger.entry identity := fun identity =>
        (hloaded.entries identity).trans (hs.now.entries identity).symm
      exact .single (.quiet ⟨rfl, hentries, fun _ => hloaded.ascending, Ledger.path_load _ _⟩)
  | outside remote => exact .single (.quiet ⟨rfl, fun _ => rfl, id, rfl⟩)

theorem Consistent.step (hpublisher : publisher.KeepsIds) (hs : Consistent path s)
    (h : Step publisher Files.Reaches s t) : Consistent path t := by
  have hevents := events_of_step hpublisher hs h
  refine ⟨hs.now.events hevents, (path_of_events hevents).trans hs.atPath, ?_⟩
  cases h with
  | @save fs saved _ hpersist =>
      -- what is loaded from here is what is in use now
      intro _ _ hsaved hreaches
      cases hsaved
      obtain rfl := hs.atPath
      rw [Ledger.load_persist hs.now.ascending hpersist hreaches]
      exact ⟨hs.now.ascending, hs.now.named, hs.now.entries, hs.now.single⟩
  | run | parent | page | load | outside => exact hs.saved

theorem Consistent.steps (hpublisher : publisher.KeepsIds) (hs : Consistent path s)
    (h : ReflTransGen (Step publisher Files.Reaches) s t) :
    Consistent path t ∧ ReflTransGen Event s.now t.now := by
  induction h with
  | refl => exact ⟨hs, .refl⟩
  | tail _ hstep ih =>
      obtain ⟨hmid, hevents⟩ := ih
      exact ⟨hmid.step hpublisher hstep, hevents.trans (events_of_step hpublisher hmid hstep)⟩

end Steps

/-! ## A state file behind a link

In `looped`, `x` is a link to the directory it is in. A ledger may be kept in `x/y`, but one
that is kept in `x/x` takes the place of the link and is lost. -/

/-- A publisher that takes every draft and names a new page after its document. -/
def agreeable : Publisher Unit where
  files _ := { root := .directory [], workingDirectory := [] }
  publish draft _ := (.ok (draft.pageId.getD ("id-" ++ draft.identity)), ())

theorem agreeable_keepsIds : agreeable.KeepsIds where
  named h hnone := by
    cases h
    rw [hnone]
    simp
  kept h hsome := by
    cases h
    rw [hsome]
    rfl

/-- A page by itself. -/
def note : Document :=
  { source := .virtual, identity := "a", title := "A", isIndex := false, parentTitle := "",
    parentIdentity := "", level := 0, attachments := [] }

/-- The draft of the page when it is new. -/
def noteDraft : Draft :=
  { identity := "a", title := "A", parentId := "", pageId := none,
    body := (Storage.renderMarkdown {} note.context "").body, attachments := [] }

/-- A first run over the page. -/
theorem run_note (path : String) :
    (Runner.run {} agreeable.recording [note] (start path ()).now).2
      = ⟨{ path, entries := [("a", entryOf (noteDraft, "id-a"))] },
        ((), [(noteDraft, "id-a")])⟩ := by
  simp [Runner.run, inOrder, Runner.syncAll, Runner.syncDocument, Runner.render, note,
    missingAttachments, Document.path, Runner.parentId, Runner.publishPage, start,
    Ledger.entryFor, Ledger.read, Ledger.entry, Keyed.find?, Keyed.set, Entry.isNew,
    Publisher.recording, agreeable, Ledger.commit, entryOf, noteDraft]

/-- A directory with a link to itself. -/
def looped : FileSystem :=
  { root := .directory [("x", .link ".")], workingDirectory := [] }

/-- The link leads to the directory it is in, whatever else is there. -/
theorem walkFrom_link {fs : FileSystem} {path : String} (hdir : Files.DirectoryAt fs.root [])
    (hlink : Files.lookUp fs.root ["x"] = some (.link ".")) (hworking : fs.workingDirectory = [])
    (husable : Files.Usable path) (hrelative : Files.isAbsolute path = false) :
    fs.walkFrom path true [.into "x"] = .ok (.node [] fs.root) := by
  have hself : Files.stepsOf "." ++ [] = [.stay] := by decide
  have hleads : Files.Leads fs.root Files.linkLimit [] [.into "x"] [] 39 :=
    .link hdir (by decide) hlink (hself ▸ .stay hdir .arrived)
  refine Files.walkFrom_eq_ok_iff.2 ⟨husable, ⟨39, ?_⟩, rfl⟩
  rw [FileSystem.startOf, hrelative, hworking]
  exact hleads

theorem makeDirectories_looped : looped.makeDirectories "x" = (.ok (), looped) := by
  have hancestors : Files.ancestors "x" = ["x"] := by decide
  have husable : Files.Usable "x" := ⟨by decide, by decide⟩
  have hmake : looped.makeDirectory "x" = .error .alreadyExists := by
    have hbare : (Text.segmentsOf ("x".toList.reverse.dropWhile (· = '/')).reverse).filterMap
        Files.stepOf = [.into "x"] := by decide
    have hwalk : looped.walkFrom "x" false [.into "x"] = .ok (.node ["x"] (.link ".")) := by
      unfold FileSystem.walkFrom
      rw [if_neg (by decide), if_neg (by decide), if_neg (by decide)]
      simp only [looped, Files.Node.at?, List.reverse_nil]
      rw [Files.walk, if_neg (by decide)]
      rfl
    unfold FileSystem.makeDirectory
    simp only [hbare, hwalk]
  have hdirectory : looped.isDirectory "x" = true := by
    have hsteps : Files.stepsOf "x" = [.into "x"] := by decide
    rw [FileSystem.isDirectory, FileSystem.node, FileSystem.find, hsteps,
      walkFrom_link ⟨_, rfl⟩ rfl rfl husable (by decide)]
    rfl
  rw [FileSystem.makeDirectories, hancestors, FileSystem.makeMissing, hmake]
  simp [hdirectory]

/-- Saving a ledger under a name in the directory the link leads to. -/
theorem persist_looped {ledger : Ledger} {name : String}
    (hparent : Ledger.directoryOf ledger.path = "x")
    (husable : Files.Usable ledger.path) (hrelative : Files.isAbsolute ledger.path = false)
    (hsteps : (Text.segmentsOf ledger.path.toList).filterMap Files.stepOf
      = [.into "x", .into name])
    (hname : ¬ Files.nameLimit < name.utf8ByteSize)
    (hslash : ¬ ledger.path.toList.getLast? = some '/') :
    ledger.persist looped = (.ok (),
      looped.put [] name (.file (Ledger.encode ledger.entries).toUTF8)) := by
  have hwalk : looped.walkFrom ledger.path true [.into "x"] = .ok (.node [] looped.root) :=
    walkFrom_link ⟨_, rfl⟩ rfl rfl husable hrelative
  have hreplace : ∀ content, looped.replace ledger.path content
      = .ok (looped.put [] name (.file content)) := by
    intro content
    unfold FileSystem.replace
    simp only [hsteps, List.dropLast_cons_cons, List.dropLast_singleton, hwalk]
    simp only [looped, List.getLast?_cons_cons, List.getLast?_singleton, if_neg hname,
      if_neg hslash, Keyed.find?_cons, Keyed.find?_nil]
    split
    · next hfind =>
        split at hfind
        · cases hfind
        · cases hfind
    · rfl
  unfold Ledger.persist
  rw [hparent, makeDirectories_looped]
  simp only [hreplace]

/-- What the first run over the page comes to. -/
def noted (path : String) : Session Unit where
  now := ⟨{ path, entries := [("a", entryOf (noteDraft, "id-a"))] }, ((), [(noteDraft, "id-a")])⟩

/-- The ledger of the first run is saved and loaded again. -/
theorem steps_reload {found : FileSystem → String → Prop} {path : String} {fs saved : FileSystem}
    (hsaved : (noted path).now.ledger.persist fs = (.ok (), saved)) (hfound : found saved path) :
    ReflTransGen (Step agreeable found) (start path ())
      ⟨⟨(Ledger.load saved path).ledger, ((), [(noteDraft, "id-a")])⟩,
        some (saved, [(noteDraft, "id-a")])⟩ := by
  have hrun : Step agreeable found (start path ()) (noted path) := by
    have h : Step agreeable found (start path ()) { start path () with
        now := (Runner.run {} agreeable.recording [note] (start path ()).now).2 } :=
      .run {} (by simp [note])
    rw [run_note] at h
    exact h
  exact ((ReflTransGen.single hrun).tail (.save hsaved)).tail (.load rfl hfound)

/-! ## Whole histories -/

/-- At every point of a history the ledger mirrors what the publisher accepted. So a page is
created once at most, and an id that is known is known for good. A ledger may be loaded again
where the directory of its state file can still be reached. -/
theorem mirrors_history {publisher : Publisher σ} (hpublisher : publisher.KeepsIds)
    {path : String} {remote : σ} {s : Session σ}
    (h : ReflTransGen (Step publisher Files.Reaches) (start path remote) s) :
    Mirrors s.now.remote.2 s.now.ledger
      ∧ (∀ identity, (creations identity s.now.remote.2).length ≤ 1)
      ∧ ∀ later, ReflTransGen (Step publisher Files.Reaches) s later →
          ∀ identity, (s.now.ledger.entry identity).id ≠ "" →
            (later.now.ledger.entry identity).id = (s.now.ledger.entry identity).id := by
  obtain ⟨hs, _⟩ := (consistent_start path remote).steps hpublisher h
  refine ⟨hs.now.mirrors, hs.now.single, fun later hlater identity hid => ?_⟩
  obtain ⟨_, hevents⟩ := hs.steps hpublisher hlater
  exact id_of_events hevents hid

/-- The page of a ledger behind the link keeps its entry. -/
theorem mirrors_history_note :
    ∃ s, ReflTransGen (Step agreeable Files.Reaches) (start "x/y" ()) s
      ∧ s.now.remote.2 = [(noteDraft, "id-a")] ∧ s.saved.isSome
      ∧ Mirrors s.now.remote.2 s.now.ledger
      ∧ (∀ identity, (creations identity s.now.remote.2).length ≤ 1)
      ∧ ∀ later, ReflTransGen (Step agreeable Files.Reaches) s later →
          ∀ identity, (s.now.ledger.entry identity).id ≠ "" →
            (later.now.ledger.entry identity).id = (s.now.ledger.entry identity).id := by
  have hsaved : (noted "x/y").now.ledger.persist looped = (.ok (), looped.put [] "y"
      (.file (Ledger.encode (noted "x/y").now.ledger.entries).toUTF8)) :=
    persist_looped (by decide) ⟨by decide, by decide⟩ (by decide) (by decide) (by decide)
      (by decide)
  generalize (Ledger.encode (noted "x/y").now.ledger.entries).toUTF8 = content at hsaved
  have hreaches : Files.Reaches (looped.put [] "y" (.file content)) "x/y" := by
    have hleading : Files.leadingSteps "x/y" = [.into "x"] := by decide
    refine ⟨[], [("x", .link "."), ("y", .file content)], ?_⟩
    rw [hleading]
    exact walkFrom_link ⟨_, rfl⟩ rfl rfl ⟨by decide, by decide⟩ (by decide)
  have hsteps := steps_reload hsaved hreaches
  exact ⟨_, hsteps, rfl, rfl, mirrors_history agreeable_keepsIds hsteps⟩

/-- A ledger in the place of the link is lost, and with it the entry of the page. -/
theorem not_mirrors_of_replaced_link :
    agreeable.KeepsIds ∧ ∃ s, ReflTransGen (Step agreeable fun _ _ => True) (start "x/x" ()) s
      ∧ ¬ Mirrors s.now.remote.2 s.now.ledger := by
  have hsaved : (noted "x/x").now.ledger.persist looped = (.ok (), looped.put [] "x"
      (.file (Ledger.encode (noted "x/x").now.ledger.entries).toUTF8)) :=
    persist_looped (by decide) ⟨by decide, by decide⟩ (by decide) (by decide) (by decide)
      (by decide)
  generalize (Ledger.encode (noted "x/x").now.ledger.entries).toUTF8 = content at hsaved
  refine ⟨agreeable_keepsIds, _, steps_reload hsaved trivial, fun hmirrors => ?_⟩
  have hwalk : (looped.put [] "x" (.file content)).walkFrom "x/x" true [.into "x", .into "x"]
      = .error .notADirectory := by
    unfold FileSystem.walkFrom
    rw [if_neg (by decide), if_neg (by decide), if_neg (by decide)]
    show Files.walk (.directory [("x", .file content)]) true Files.linkLimit []
      (.directory [("x", .file content)]) [.into "x", .into "x"] = _
    rw [Files.walk, if_neg (by decide)]
    show Files.walk (.directory [("x", .file content)]) true Files.linkLimit ["x"]
      (.file content) [.into "x"] = _
    simp [Files.walk]
  have hread : (looped.put [] "x" (.file content)).read "x/x" = .error .notADirectory := by
    have hsteps : Files.stepsOf "x/x" = [.into "x", .into "x"] := by decide
    rw [FileSystem.read, FileSystem.node, FileSystem.find, hsteps, hwalk]
  have hentry := hmirrors "a"
  unfold Ledger.load at hentry
  simp only [hread] at hentry
  exact absurd hentry (by simp [lastAccepted, noteDraft])

end WikiPress.Sync
