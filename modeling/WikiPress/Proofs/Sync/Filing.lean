import WikiPress.Proofs.Sync.Continuity
import WikiPress.Proofs.Sync.History

/-!
# WikiPress.Proofs.Sync.Filing

The drafts that were accepted, each with the files there were when it was handed over.

A page is more than its entry in the ledger tells: it has a title, and files are published with
it. What a page was given is known from the drafts and the files of that moment, so both are kept
(`Publisher.filing`). A history of syncs is then looked at with and without the files.

Design points:

* Only a document's own turn files a draft for it (`lastFiled_syncAll`), and the draft has the
  document's title and attachments (`filed_syncAll`).
* Without the files a history of syncs is one of a ledger and a publisher
  (`Happens.step`), so the ledger says of each document what the last draft says.
-/

namespace WikiPress.Sync

open Relation (ReflTransGen)
open WikiPress.Files (FileSystem FileError)

variable {σ : Type}

/-! ## What is filed -/

/-- A draft that was accepted, and the files there were when it was handed over. -/
structure Filed where
  accepted : Accepted
  files : FileSystem

/-- The draft. -/
def Filed.draft (filed : Filed) : Draft := filed.accepted.1

/-- The publisher, with a file of the drafts it accepted, the last one first. -/
def Publisher.filing (publisher : Publisher σ) : Publisher (σ × List Filed) where
  files state := publisher.files state.1
  publish draft state :=
    match publisher.publish draft state.1 with
    | (.ok id, remote) =>
        (.ok id, (remote, ⟨(draft, id), publisher.files state.1⟩ :: state.2))
    | (.error e, remote) => (.error e, (remote, state.2))

/-- The last draft that was filed for a document. -/
def lastFiled (identity : String) (filed : List Filed) : Option Filed :=
  filed.find? fun f => f.draft.identity = identity

/-- The files that are published with a document, with what is in them. -/
def Document.contents (document : Document) (fs : FileSystem) :
    List (String × Except FileError ByteArray) :=
  document.attachments.map fun path => (path, fs.read path)

/-- The files that were published with a draft, with what was in them. -/
def Filed.contents (filed : Filed) : List (String × Except FileError ByteArray) :=
  filed.draft.attachments.map fun path => (path, filed.files.read path)

/-- Whether a draft was made for a document. -/
structure Filed.IsOf (filed : Filed) (document : Document) : Prop where
  identity : filed.draft.identity = document.identity
  title : filed.draft.title = document.title
  attachments : filed.draft.attachments = document.attachments

/-- What was filed, without the files. -/
def unfiled (state : σ × List Filed) : σ × List Accepted := (state.1, state.2.map Filed.accepted)

theorem lastAccepted_map (identity : String) (filed : List Filed) :
    lastAccepted identity (filed.map Filed.accepted)
      = (lastFiled identity filed).map Filed.accepted :=
  List.find?_map

theorem eq_of_lastFiled {identity : String} {filed : List Filed} {last : Filed}
    (h : lastFiled identity filed = some last) :
    last ∈ filed ∧ last.draft.identity = identity := by
  rw [lastFiled] at h
  exact ⟨List.mem_of_find?_eq_some h, by simpa using List.find?_some h⟩

theorem filing_answersAs (publisher : Publisher σ) :
    publisher.filing.AnswersAs publisher.recording unfiled where
  files _ := rfl
  answer draft state := by
    simp only [Publisher.filing, Publisher.recording, unfiled]
    generalize publisher.publish draft state.1 = published
    obtain ⟨answer, remote⟩ := published
    cases answer <;> rfl
  state draft state := by
    simp only [Publisher.filing, Publisher.recording, unfiled]
    generalize publisher.publish draft state.1 = published
    obtain ⟨answer, remote⟩ := published
    cases answer <;> rfl

theorem filing_error {publisher : Publisher σ} {draft : Draft} {state after : σ × List Filed}
    {e : PublishError} (h : publisher.filing.publish draft state = (.error e, after)) :
    after.2 = state.2 := by
  simp only [Publisher.filing] at h
  split at h
  · cases h
  · cases h
    rfl

theorem filing_ok {publisher : Publisher σ} {draft : Draft} {state after : σ × List Filed}
    {id : String} (h : publisher.filing.publish draft state = (.ok id, after)) :
    after.2 = ⟨(draft, id), publisher.files state.1⟩ :: state.2 := by
  simp only [Publisher.filing] at h
  split at h
  · cases h
    rfl
  · cases h

/-! ## Turns -/

section Turns

variable {runner : Runner} {publisher : Publisher σ} {document : Document}
  {documents : List Document} {p q : Progress (σ × List Filed)} {outcome : Outcome}

/-- A turn files nothing, or a draft of its document. -/
theorem Takes.filed (h : Takes runner publisher.filing document p outcome q) :
    q.remote.2 = p.remote.2
      ∨ ∃ filed : Filed, filed.IsOf document ∧ q.remote.2 = filed :: p.remote.2 := by
  cases h with
  | unreadable | stranded | settled | foreseen => exact Or.inl rfl
  | refused _ _ _ _ hanswer _ => exact Or.inl (filing_error hanswer)
  | accepted _ _ _ _ hanswer _ => exact Or.inr ⟨_, ⟨rfl, rfl, rfl⟩, filing_ok hanswer⟩

theorem Takes.isOf_of_mem (h : Takes runner publisher.filing document p outcome q) {filed : Filed}
    (hfiled : filed ∈ q.remote.2) : filed ∈ p.remote.2 ∨ filed.IsOf document := by
  rcases h.filed with hsame | ⟨own, hof, hnew⟩
  · exact Or.inl (hsame ▸ hfiled)
  · rw [hnew] at hfiled
    rcases List.mem_cons.1 hfiled with rfl | hbefore
    · exact Or.inr hof
    · exact Or.inl hbefore

/-- A real turn that does not fail files the page of its document, unless the page is as it was
published. -/
theorem Takes.filed_of_not_failure (h : Takes runner publisher.filing document p outcome q)
    (hreal : runner.dryRun = false) (hok : outcome.isFailure = false) :
    ∃ page, runner.render (publisher.files p.remote.1) document = .ok page
      ∧ (Settled (p.ledger.known document.identity) page.body (runner.pageAbove p.ledger document)
          ∧ q.remote.2 = p.remote.2
        ∨ ¬ Settled (p.ledger.known document.identity) page.body
            (runner.pageAbove p.ledger document)
          ∧ ∃ id, q.remote.2 = ⟨(document.draft (p.ledger.known document.identity) page.body
            (runner.pageAbove p.ledger document), id), publisher.files p.remote.1⟩
              :: p.remote.2) := by
  cases h with
  | unreadable | stranded | refused => cases hok
  | foreseen _ hdry _ _ => rw [hreal] at hdry; cases hdry
  | settled hpage _ hsettled _ => exact ⟨_, hpage, Or.inl ⟨hsettled, rfl⟩⟩
  | @accepted _ _ id _ hpage _ _ hsettled hanswer _ =>
      exact ⟨_, hpage, Or.inr ⟨hsettled, id, filing_ok hanswer⟩⟩

theorem Takes.lastFiled_of_ne (h : Takes runner publisher.filing document p outcome q)
    {identity : String} (hne : identity ≠ document.identity) :
    lastFiled identity q.remote.2 = lastFiled identity p.remote.2 := by
  rcases h.filed with hsame | ⟨filed, hof, hfiled⟩
  · rw [hsame]
  · have hother : decide (filed.draft.identity = identity) = false := by
      simpa [hof.identity] using Ne.symm hne
    rw [hfiled, lastFiled, List.find?_cons, hother]
    rfl

/-- A draft stays the last one of its document until the document has its turn. -/
theorem lastFiled_syncAll (runner : Runner) (publisher : Publisher σ) {identity : String}
    (h : identity ∉ documents.map Document.identity) (p : Progress (σ × List Filed)) :
    lastFiled identity (runner.syncAll publisher.filing documents p).2.remote.2
      = lastFiled identity p.remote.2 := by
  induction documents generalizing p with
  | nil => rfl
  | cons document rest ih =>
      rw [List.map_cons, List.mem_cons, not_or] at h
      have hstep := takes_syncDocument runner publisher.filing document p
      exact (ih h.2 _).trans (hstep.lastFiled_of_ne h.1)

/-- Every draft was filed before, or for one of the documents. -/
theorem filed_syncAll {filed : Filed}
    (h : filed ∈ (runner.syncAll publisher.filing documents p).2.remote.2) :
    filed ∈ p.remote.2 ∨ ∃ document ∈ documents, filed.IsOf document := by
  induction documents generalizing p with
  | nil => exact Or.inl h
  | cons document rest ih =>
      rcases ih h with hearlier | ⟨later, hlater, hof⟩
      · have hstep := takes_syncDocument runner publisher.filing document p
        rcases hstep.isOf_of_mem hearlier with hbefore | hof
        · exact Or.inl hbefore
        · exact Or.inr ⟨document, List.mem_cons_self, hof⟩
      · exact Or.inr ⟨later, List.mem_cons_of_mem _ hlater, hof⟩

end Turns

/-! ## Histories of syncs -/

/-- How things stand in a history of syncs. -/
structure Standing (σ : Type) where
  now : Progress (σ × List Filed)
  /-- The files the ledger was last saved in, and what was filed by then. -/
  saved : Option (FileSystem × List Filed) := none

/-- What happens in a history of syncs, all of which have settings of some kind. -/
inductive Happens (publisher : Publisher σ) (settings : Scanner → Prop) :
    Standing σ → Standing σ → Prop
  /-- The documents are scanned and taken through a run. -/
  | sync (runner : Runner) {scanner : Scanner} {documents : List Document} {s : Standing σ} :
      settings scanner → Scanned scanner (publisher.files s.now.remote.1) documents →
      (∀ document ∈ documents, document.identity ≠ "") →
      Happens publisher settings s
        { s with now := (runner.run publisher.filing documents s.now).2 }
  /-- The ledger is saved. -/
  | save {fs saved : FileSystem} {s : Standing σ} :
      s.now.ledger.persist fs = (.ok (), saved) →
      Happens publisher settings s { s with saved := some (saved, s.now.remote.2) }
  /-- The ledger is loaded. Nothing was accepted since it was saved. -/
  | load {fs : FileSystem} {s : Standing σ} :
      s.saved = some (fs, s.now.remote.2) → Files.Reaches fs s.now.ledger.path →
      Happens publisher settings s
        { s with now := { s.now with ledger := (Ledger.load fs s.now.ledger.path).ledger } }
  /-- Documents, other files and what is at the publisher's are changed. -/
  | edit (remote : σ) {s : Standing σ} :
      Happens publisher settings s
        { s with now := { s.now with remote := (remote, s.now.remote.2) } }

/-- The start of a history: an empty ledger, and nothing filed. -/
def opening (path : String) (remote : σ) : Standing σ where
  now := ⟨{ path }, (remote, [])⟩

/-- How things stand, without the files. -/
def Standing.session (s : Standing σ) : Session σ where
  now := s.now.seen unfiled
  saved := s.saved.map fun (fs, filed) => (fs, filed.map Filed.accepted)

section Histories

variable {publisher : Publisher σ} {settings : Scanner → Prop} {s t : Standing σ}

/-- Without the files, what happens is a step of a ledger and a publisher. -/
theorem Happens.step (h : Happens publisher settings s t) :
    Step publisher Files.Reaches s.session t.session := by
  cases h with
  | @sync runner scanner documents _ _ _ hnamed =>
      have hrun := (run_seen (filing_answersAs publisher) runner documents s.now).2
      rw [Standing.session, Standing.session, hrun]
      exact .run runner hnamed
  | save hsaved => exact .save hsaved
  | load hsaved hreaches =>
      refine .load ?_ hreaches
      rw [Standing.session, hsaved]
      rfl
  | edit remote => exact .outside remote

/-- The ledger and the last drafts agree. -/
theorem faithful_of_happens (hpublisher : publisher.KeepsIds) {path : String} {remote : σ}
    (h : ReflTransGen (Happens publisher settings) (opening path remote) s) :
    Faithful (s.now.remote.2.map Filed.accepted) s.now.ledger := by
  have hsteps : ReflTransGen (Step publisher Files.Reaches) (start path remote) s.session :=
    h.lift Standing.session fun _ _ => Happens.step
  exact ((consistent_start path remote).steps hpublisher hsteps).1.now

/-- Whether every draft was made for a document of a scan with settings of some kind. -/
def Sourced (settings : Scanner → Prop) (filed : List Filed) : Prop :=
  ∀ f ∈ filed, ∃ scanner fs documents, settings scanner ∧ Scanned scanner fs documents
    ∧ ∃ document ∈ documents, f.IsOf document

theorem Happens.sourced (h : Happens publisher settings s t)
    (hs : Sourced settings s.now.remote.2) : Sourced settings t.now.remote.2 := by
  cases h with
  | @sync runner scanner documents _ hsettings hscanned _ =>
      intro filed hfiled
      rcases filed_syncAll hfiled with hbefore | ⟨document, hmem, hof⟩
      · exact hs filed hbefore
      · exact ⟨scanner, _, documents, hsettings, hscanned, document, mem_inOrder.1 hmem, hof⟩
  | save | load | edit => exact hs

theorem sourced_of_happens {path : String} {remote : σ}
    (h : ReflTransGen (Happens publisher settings) (opening path remote) s) :
    Sourced settings s.now.remote.2 := by
  induction h with
  | refl => exact fun _ hfiled => absurd hfiled List.not_mem_nil
  | tail _ hlast ih => exact hlast.sourced ih

end Histories

/-! ## A history to try runs with -/

/-- A publisher that accepts every draft and names a new page after its document. -/
def obliging : Publisher FileSystem where
  files fs := fs
  publish draft fs := (.ok (draft.pageId.getD ("id-" ++ draft.identity)), fs)

theorem obliging_keepsIds : obliging.KeepsIds where
  named h hnone := by
    cases h
    simp [hnone]
  kept h hsome := by
    cases h
    simp [hsome]

theorem obliging_steady :
    obliging.filing.Steady fun draft => .ok (draft.pageId.getD ("id-" ++ draft.identity)) :=
  (filing_answersAs obliging).steady ((recording_answersAs obliging).steady ⟨fun _ _ => rfl,
    fun _ _ => rfl⟩)

/-- What is accepted when a document at the top is published for the first time. -/
def firstAccepted (runner : Runner) (document : Document) (body : String) : Accepted :=
  (document.draft {} body runner.rootPageId, "id-" ++ document.identity)

/-- How things stand when it has been published from some files, and then there are others. -/
def afterFirst (runner : Runner) (document : Document) (body : String) (fs later : FileSystem) :
    Progress (FileSystem × List Filed) :=
  ⟨{ path := "state.json",
     entries := [(document.identity, entryOf (firstAccepted runner document body))] },
    (later, [⟨firstAccepted runner document body, fs⟩])⟩

/-- A first sync of the only document there is, which is at the top, and an edit. -/
theorem happens_first {settings : Scanner → Prop} {scanner : Scanner} {first : Document}
    {fs : FileSystem} {runner : Runner} {page : Storage.Page} (hsettings : settings scanner)
    (hscanned : Scanned scanner fs [first]) (hnamed : first.identity ≠ "")
    (htop : first.parentIdentity = "") (hreal : runner.dryRun = false)
    (hpage : runner.render fs first = .ok page) (later : FileSystem) :
    ReflTransGen (Happens obliging settings) (opening "state.json" fs)
      ⟨afterFirst runner first page.body fs later, none⟩ := by
  have hrun : (runner.run obliging.filing [first] (opening "state.json" fs).now).2
      = afterFirst runner first page.body fs fs := by
    simp [Runner.run, inOrder, Runner.syncAll, Runner.syncDocument, Publisher.filing, obliging,
      hpage, Runner.parentId, htop, Runner.publishPage, opening, hreal, Ledger.entryFor, hnamed,
      Ledger.read, Ledger.entry, Keyed.find?, Keyed.set, Entry.isNew, Ledger.commit, entryOf,
      Document.draft, afterFirst, firstAccepted]
  have hsync : Happens obliging settings (opening "state.json" fs)
      ⟨afterFirst runner first page.body fs fs, none⟩ := by
    rw [← hrun]
    exact .sync runner hsettings hscanned (by simpa using hnamed)
  exact (ReflTransGen.single hsync).tail (.edit later)

/-- The document has its turn in a further run, under another title perhaps. -/
theorem syncDocument_again {runner : Runner} {first document : Document} {fs later : FileSystem}
    {page : Storage.Page} (hnamed : first.identity ≠ "")
    (hsame : document.identity = first.identity) (htop : document.parentIdentity = "")
    (hpage : runner.render later document = .ok page) :
    runner.syncDocument obliging.filing document (afterFirst runner first page.body fs later)
      = (.unchanged, missingAttachments later document page,
        afterFirst runner first page.body fs later) := by
  simp [Runner.syncDocument, Publisher.filing, obliging, hpage, Runner.parentId, htop,
    Runner.publishPage, Ledger.entryFor, hnamed, hsame, Ledger.read, Ledger.entry, Keyed.find?,
    Keyed.set, Entry.isNew, entryOf, Document.draft, afterFirst, firstAccepted]

end WikiPress.Sync
