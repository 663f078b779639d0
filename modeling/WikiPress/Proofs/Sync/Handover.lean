import WikiPress.Proofs.Sync.PageTree
import WikiPress.Proofs.Sync.Sources
import WikiPress.Proofs.Sync.Staging

/-!
# WikiPress.Proofs.Sync.Handover

The drafts a publisher is handed, and the files they were drawn from.

Design points:

* A draft is handed over if the publisher that is watched (`Publisher.watched`) has noted it at
  the document's turn, be it accepted or refused.
* A staging area writes files of its own names and copies of what is no Markdown. In a tree
  without links none of them is a document's file, so a document is read at its turn as it was
  at the start of the run (`read_at_turn`).
-/

namespace WikiPress.Sync

open WikiPress.Files (FileSystem Node Place ProperName Spared join fileName)

variable {σ : Type}

/-! ## What a publisher is handed -/

/-- Where a run is after some documents, with a note of the drafts it has handed over. -/
def Runner.watchedAfter (runner : Runner) (publisher : Publisher σ) (taken : List Document)
    (start : Progress σ) : Progress (σ × List Draft) :=
  (runner.syncAll publisher.watched taken ⟨start.ledger, (start.remote, [])⟩).2

/-- A document's turn takes a run from where the documents before it left it. -/
theorem takes_watched (runner : Runner) (publisher : Publisher σ) (taken : List Document)
    (document : Document) (start : Progress σ) :
    ∃ outcome, Takes runner publisher.watched document (runner.watchedAfter publisher taken start)
      outcome (runner.watchedAfter publisher (taken ++ [document]) start) := by
  have htakes := takes_syncDocument runner publisher.watched document
    (runner.watchedAfter publisher taken start)
  have hafter : runner.watchedAfter publisher (taken ++ [document]) start
      = (runner.syncDocument publisher.watched document
        (runner.watchedAfter publisher taken start)).2.2 :=
    (syncAll_append runner publisher.watched taken [document] _).2
  rw [hafter]
  exact ⟨_, htakes⟩

/-- Whether a run hands its publisher a draft at a document's turn, and in which state the
publisher is then. -/
def Runner.HandsOver (runner : Runner) (publisher : Publisher σ) (documents : List Document)
    (start : Progress σ) (document : Document) (draft : Draft) (state : σ) : Prop :=
  ∃ taken rest, inOrder documents = taken ++ document :: rest
    ∧ (runner.watchedAfter publisher taken start).remote.1 = state
    ∧ (runner.watchedAfter publisher (taken ++ [document]) start).remote.2
      = draft :: (runner.watchedAfter publisher taken start).remote.2

section Handed

variable {runner : Runner} {publisher : Publisher σ} {documents : List Document}
  {document : Document} {draft : Draft}

/-- A draft that is handed over was drawn from the document. -/
theorem Takes.drawn {p q : Progress (σ × List Draft)} {outcome : Outcome}
    (h : Takes runner publisher.watched document p outcome q)
    (hnoted : q.remote.2 = draft :: p.remote.2) :
    ∃ page entry parentId, runner.render (publisher.files p.remote.1) document = .ok page
      ∧ draft = document.draft entry page.body parentId := by
  cases h with
  | unreadable | stranded | settled | foreseen => exact absurd hnoted.symm (List.cons_ne_self _ _)
  | @refused page _ _ _ hpage _ _ _ hanswer _ | @accepted page _ _ _ hpage _ _ _ hanswer _ =>
      obtain rfl := congrArg Prod.snd hanswer
      exact ⟨page, _, _, hpage, (List.cons.inj hnoted).1.symm⟩

/-- A document that can be read and is not settled is handed over, if there is a page above. If
its draft is taken, its entry says so. -/
theorem Takes.hands_over {p q : Progress (σ × List Draft)} {outcome : Outcome} {page : Storage.Page}
    (h : Takes runner publisher.watched document p outcome q) (hreal : runner.dryRun = false)
    (hpage : runner.render (publisher.files p.remote.1) document = .ok page)
    (hplace : Anchored p.ledger document)
    (hchanged : ¬ Settled (p.ledger.known document.identity) page.body
      (runner.pageAbove p.ledger document)) :
    let draft := document.draft (p.ledger.known document.identity) page.body
      (runner.pageAbove p.ledger document)
    q.remote = ((publisher.publish draft p.remote.1).2, draft :: p.remote.2)
      ∧ ∀ id, (publisher.publish draft p.remote.1).1 = .ok id →
        p.ledger.Renews q.ledger document.identity
          { id, hash := Digest.ofText page.body,
            parentId := runner.pageAbove p.ledger document } := by
  cases h with
  | unreadable hunread => cases hunread.symm.trans hpage
  | stranded _ _ hstranded => exact absurd hplace hstranded
  | settled hread _ hsettled =>
      cases hread.symm.trans hpage
      exact absurd hsettled hchanged
  | foreseen _ hdry => cases hreal.symm.trans hdry
  | refused hread _ _ _ hanswer =>
      cases hread.symm.trans hpage
      refine ⟨(congrArg Prod.snd hanswer).symm, fun id hid => ?_⟩
      cases (congrArg Prod.fst hanswer).symm.trans hid
  | accepted hread _ _ _ hanswer hrenews =>
      cases hread.symm.trans hpage
      refine ⟨(congrArg Prod.snd hanswer).symm, fun id hid => ?_⟩
      cases (congrArg Prod.fst hanswer).symm.trans hid
      exact hrenews

theorem Runner.HandsOver.mem {start : Progress σ} {state : σ}
    (h : runner.HandsOver publisher documents start document draft state) :
    document ∈ documents := by
  obtain ⟨taken, rest, hsplit, -⟩ := h
  exact mem_inOrder.1 (by simp [hsplit])

theorem Runner.HandsOver.drawn {start : Progress σ} {state : σ}
    (h : runner.HandsOver publisher documents start document draft state) :
    ∃ page entry parentId, runner.render (publisher.files state) document = .ok page
      ∧ draft = document.draft entry page.body parentId := by
  obtain ⟨taken, rest, -, rfl, hnoted⟩ := h
  obtain ⟨outcome, htakes⟩ := takes_watched runner publisher taken document start
  exact htakes.drawn hnoted

/-- A turn keeps what publishing the document keeps. -/
theorem Takes.keeps {p q : Progress σ} {outcome : Outcome} {P : σ → Prop}
    (h : Takes runner publisher document p outcome q)
    (hpublish : ∀ draft, draft.attachments = document.attachments →
      ∀ state, P state → P (publisher.publish draft state).2)
    (hp : P p.remote) : P q.remote := by
  cases h with
  | unreadable | stranded | settled | foreseen => exact hp
  | @refused page _ _ _ _ _ _ _ hanswer _ | @accepted page _ _ _ _ _ _ _ hanswer _ =>
      have hafter := hpublish (document.draft (p.ledger.known document.identity) page.body
        (runner.pageAbove p.ledger document)) rfl p.remote hp
      rw [hanswer] at hafter
      exact hafter

theorem keeps_syncAll {P : σ → Prop} (runner : Runner) {order : List Document}
    (hpublish : ∀ document ∈ order, ∀ draft, draft.attachments = document.attachments →
      ∀ state, P state → P (publisher.publish draft state).2)
    {p : Progress σ} (hp : P p.remote) : P (runner.syncAll publisher order p).2.remote := by
  induction order generalizing p with
  | nil => exact hp
  | cons document rest ih =>
      obtain ⟨hfirst, hrest⟩ := List.forall_mem_cons.1 hpublish
      exact ih hrest ((takes_syncDocument runner publisher document p).keeps hfirst hp)

/-- What publishing the documents of a run keeps holds at every turn. -/
theorem Runner.HandsOver.keeps {start : Progress σ} {state : σ}
    (h : runner.HandsOver publisher documents start document draft state) {P : σ → Prop}
    (hpublish : ∀ document ∈ documents, ∀ draft, draft.attachments = document.attachments →
      ∀ state, P state → P (publisher.publish draft state).2)
    (hstart : P start.remote) : P state := by
  obtain ⟨taken, rest, hsplit, rfl, -⟩ := h
  have htaken : ∀ document ∈ taken, document ∈ documents := fun document hmem =>
    mem_inOrder.1 (hsplit ▸ List.mem_append_left _ hmem)
  have hwatched : ∀ document ∈ taken, ∀ draft, draft.attachments = document.attachments →
      ∀ state : σ × List Draft, P state.1 → P (publisher.watched.publish draft state).2.1 :=
    fun document hmem draft hdraft state =>
      hpublish document (htaken document hmem) draft hdraft state.1
  exact keeps_syncAll (P := fun state : σ × List Draft => P state.1) runner hwatched hstart

end Handed

/-! ## Files that staging leaves alone -/

section Spared

variable {start : FileSystem} {place : Place} {content : ByteArray}

theorem spares_writeFile {path : String} (hpath : start.placeOf path ≠ place) (text : String) :
    Keeps (Spared start place content) (writeFile path text) :=
  keeps_change fun _ _ h hwrite => h.write hpath hwrite

theorem spares_copyInto {around path : String}
    (hpath : ∀ name, fileName path = some name → start.placeOf (join around name) ≠ place) :
    Keeps (Spared start place content) (copyInto around path) := by
  unfold copyInto
  split
  · exact keeps_pure
  · next name hname => exact keeps_change fun _ _ h hcopy => h.copy (hpath name hname) hcopy

theorem spares_copyAll {around : String} {paths : List String}
    (hpaths : ∀ path ∈ paths, ∀ name, fileName path = some name →
      start.placeOf (join around name) ≠ place) :
    Keeps (Spared start place content) (copyAll around paths) := by
  unfold copyAll
  split
  · exact keeps_pure
  · exact (keeps_makeDirectories fun _ h => h.makeDirectories around).followedBy
      (keeps_forM _ fun path hpath => spares_copyInto (hpaths path hpath))

/-- Staging a page leaves a file alone that is none of the page's files. -/
theorem spares_stagePage {page : String} {draft : Draft}
    (hbody : start.placeOf (join page "page.xml") ≠ place)
    (hdescription : start.placeOf (join page "page.json") ≠ place)
    (hattached : ∀ path ∈ draft.attachments, ∀ name, fileName path = some name →
      start.placeOf (join (join page "attachments") name) ≠ place) :
    Keeps (Spared start place content) (stagePage page draft) :=
  (keeps_makeDirectories fun _ h => h.makeDirectories page).followedBy
    ((spares_writeFile hbody _).followedBy
      ((spares_writeFile hdescription _).followedBy (spares_copyAll hattached)))

/-- A staging area leaves a file alone that has another name than any file it writes. -/
theorem spares_publish {area : StagingArea} {draft : Draft} {name : String} {rest : Place}
    (hplace : place = name :: rest) (hbody : name ≠ "page.xml") (hdescription : name ≠ "page.json")
    (hattached : ∀ path ∈ draft.attachments, fileName path ≠ some name) {state : StagingState}
    (h : Spared start place content state.files) :
    Spared start place content (area.publisher.publish draft state).2.files := by
  subst hplace
  have hother : ∀ directory other, ProperName other → name ≠ other →
      start.placeOf (join directory other) ≠ name :: rest := by
    intro directory other hproper hne heq
    rw [Files.placeOf_joined start directory hproper] at heq
    exact hne (List.cons.inj heq).1.symm
  simp only [StagingArea.publisher, (publish_staged area draft state).1]
  exact spares_stagePage (hother _ _ (by decide) hbody) (hother _ _ (by decide) hdescription)
    (fun path hpath other hname => hother _ _ (Files.properName_of_fileName hname) (by
      rintro rfl
      exact hattached path hpath hname)) state.files h

end Spared

/-- In a tree without links a document is read at its turn as it was at the start. -/
theorem read_at_turn {runner : Runner} {area : StagingArea} {scanner : Scanner}
    {documents : List Document} {start : Progress StagingState} {document : Document}
    {draft : Draft} {state : StagingState}
    (hhanded : runner.HandsOver area.publisher documents start document draft state)
    (hscan : scanner.scan start.remote.files = .ok documents)
    {path : String} (hsource : document.source = .file path)
    (hsuffix : ".md".toList.isSuffixOf scanner.indexName.toList = true)
    (hwellNamed : start.remote.files.root.WellNamed) (hroot : start.remote.files.root.LinkFree)
    {content : ByteArray} (hread : state.files.read path = .ok content) :
    start.remote.files.read path = .ok content ∧ state.files.root.LinkFree := by
  obtain ⟨contents, place, name, hnode, hfrom, rfl⟩ :=
    exists_comesFrom hwellNamed hscan hhanded.mem hsuffix hsource
  obtain ⟨old, hold⟩ := hfrom.exists_read hroot hnode hread
  have hplace := Files.placeOf_joined start.remote.files
    (pathAt scanner.sourceDirectory place) hfrom.proper
  generalize start.remote.files.placeOf (pathAt scanner.sourceDirectory place) = around at hplace
  -- what is staged has other names than a Markdown file
  have hother : ∀ other, isMarkdown other = false → name ≠ other := by
    rintro other hplain rfl
    rw [hfrom.markdown] at hplain
    cases hplain
  have hbody : name ≠ "page.xml" := hother _ (by decide +kernel)
  have hdescription : name ≠ "page.json" := hother _ (by decide +kernel)
  have hpublish : ∀ document ∈ documents, ∀ draft, draft.attachments = document.attachments →
      ∀ state : StagingState, Spared start.remote.files (name :: around) old state.files →
      Spared start.remote.files (name :: around) old
        (area.publisher.publish draft state).2.files := by
    intro document hmem draft hdraft state h
    refine spares_publish rfl hbody hdescription (fun path hpath hname => ?_) h
    rw [hdraft] at hpath
    exact hother name (not_markdown_of_attached hwellNamed hscan hmem hpath hname) rfl
  have hstart := Files.spared_of_read hroot hold
  rw [hplace] at hstart
  have hspared := hhanded.keeps
    (P := fun state : StagingState => Spared start.remote.files (name :: around) old state.files)
    hpublish hstart
  have hagain := hspared.read hold hroot hplace
  rw [hread] at hagain
  cases hagain
  exact ⟨hold, hspared.linkFree⟩

/-- The body of a draft that was staged is read in its page's directory, if there are no links. -/
theorem read_published {area : StagingArea} {draft : Draft} {state after : StagingState}
    {id : String} (hroot : state.files.root.LinkFree)
    (h : area.publish draft state = (.ok id, after)) :
    after.files.read (join (join area.directory id) "page.xml") = .ok draft.body.toUTF8 := by
  have hrun := (publish_eq_ok h).2
  generalize join area.directory id = page at hrun ⊢
  obtain ⟨made, hmake, hrest⟩ := run_then_ok hrun
  obtain ⟨written, hbody, hrest⟩ := run_then_ok hrest
  have hmade : made.root.LinkFree := by
    have hfree := hroot.makeDirectories page
    rwa [run_makeDirectories_iff.1 hmake] at hfree
  have hwrite := run_change_iff.1 hbody
  have hwritten : written.root.LinkFree := hmade.write hwrite
  have hread := Files.read_write hwrite
  have hbodyName : ProperName "page.xml" := by decide
  have hdescriptionName : ProperName "page.json" := by decide
  have hfolderName : ProperName "attachments" := by decide
  have hplace := Files.placeOf_joined written page hbodyName
  -- the other files have another name, or lie deeper
  have hdescription : written.placeOf (join page "page.json")
      ≠ "page.xml" :: written.placeOf page := by
    rw [Files.placeOf_joined written page hdescriptionName]
    simp
  have hattached : ∀ path ∈ draft.attachments, ∀ name, fileName path = some name →
      written.placeOf (join (join page "attachments") name)
        ≠ "page.xml" :: written.placeOf page := by
    intro path _ name hname heq
    have hlength := congrArg List.length heq
    rw [Files.placeOf_joined written _ (Files.properName_of_fileName hname),
      Files.placeOf_joined written page hfolderName] at hlength
    simp at hlength
  have hspared := Files.spared_of_read hwritten hread
  rw [hplace] at hspared
  have hkeeps := (spares_writeFile hdescription (pageDescription draft)).followedBy
    (spares_copyAll hattached) written hspared
  rw [hrest] at hkeeps
  exact hkeeps.read hread hwritten hplace

end WikiPress.Sync
