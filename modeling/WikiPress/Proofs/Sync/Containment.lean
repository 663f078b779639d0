import WikiPress.Proofs.Files.Within
import WikiPress.Proofs.Sync.Hierarchy
import WikiPress.Proofs.Sync.Staging

/-!
# WikiPress.Proofs.Sync.Containment

Where the files of a run are staged.

Design points:

* The id of a page that is known is the path of its directory below the staging directory, as the
  ledger has it. So a run stays in the staging directory as long as these ids do (`Inward`); they
  may have slashes and go up within it. The names of attached files cannot lead out.
* An id that goes up from the staging directory is followed like any other (`published_beside`).
* Only the ids of the run's own documents matter, and new pages get new ids, so this is kept by
  each turn (`Confines`).
-/

namespace WikiPress.Sync

open WikiPress.Files (FileSystem Node Place Step Extends Alike At Allowed ProperName Inward Below
  Within Enclosed Contained DirectoryAt lookUp join fileName)

/-! ## Staging a page below a directory -/

section Stage

variable {directory path : String} {start : FileSystem}

theorem contains_writeFile (hbelow : Below directory path) {name : String}
    (hname : ProperName name) (content : String) :
    Keeps (Contained directory start) (writeFile (join path name) content) :=
  keeps_change fun _ _ h hwrite => h.write hbelow hname hwrite

theorem contains_copyInto (hbelow : Below directory path) (source : String) :
    Keeps (Contained directory start) (copyInto path source) := by
  unfold copyInto
  split
  · exact keeps_pure
  · next name hname =>
      exact keeps_change fun _ _ h hcopy =>
        h.copy hbelow (Files.properName_of_fileName hname) hcopy

theorem contains_copyAll (hbelow : Below directory path) (sources : List String) :
    Keeps (Contained directory start) (copyAll path sources) := by
  unfold copyAll
  split
  · exact keeps_pure
  · exact (keeps_makeDirectories fun _ h => h.makeDirectories hbelow).followedBy
      (keeps_forM _ fun source _ => contains_copyInto hbelow source)

/-- A page whose directory is below the staging directory is staged there, whether or not it
succeeds. -/
theorem contains_stagePage (hbelow : Below directory path) (draft : Draft) :
    Keeps (Contained directory start) (stagePage path draft) := by
  have hbody : ProperName "page.xml" := by decide
  have hdescription : ProperName "page.json" := by decide
  have hattachments : ProperName "attachments" := by decide
  exact (keeps_makeDirectories fun _ h => h.makeDirectories hbelow).followedBy
    ((contains_writeFile hbelow hbody _).followedBy
      ((contains_writeFile hbelow hdescription _).followedBy
        (contains_copyAll (hbelow.join hattachments) _)))

end Stage

/-- So is a draft, under an id that does not lead out. -/
theorem contains_publish {area : StagingArea} {draft : Draft} {state after : StagingState}
    {answer : Except PublishError String} {start : FileSystem}
    (hpublish : area.publisher.publish draft state = (answer, after))
    (hid : Inward (area.idFor draft state.used))
    (h : Contained area.directory start state.files) :
    Contained area.directory start after.files := by
  have hafter : (area.publish draft state).2 = after := congrArg Prod.snd hpublish
  rw [← hafter, (publish_staged area draft state).1]
  exact contains_stagePage (Files.below_join area.directory hid) draft state.files h

theorem idFor_of_publish {area : StagingArea} {draft : Draft} {state after : StagingState}
    {id : String} (hpublish : area.publisher.publish draft state = (.ok id, after)) :
    id = area.idFor draft state.used := by
  simp only [StagingArea.publisher] at hpublish
  exact (publish_eq_ok hpublish).1

/-! ## Runs -/

/-- Whether a run of some documents has stayed in its staging area, and will. -/
structure Confines (area : StagingArea) (documents : List Document) (start : FileSystem)
    (p : Progress StagingState) : Prop where
  ids : ∀ document ∈ documents, Inward (p.ledger.known document.identity).id
  contained : Contained area.directory start p.remote.files

namespace Confines

variable {area : StagingArea} {documents : List Document} {start : FileSystem}
  {p q : Progress StagingState} {runner : Runner} {document : Document} {outcome : Outcome}

theorem of_same (h : Confines area documents start p) {ledger : Ledger} {state : StagingState}
    (hsame : p.ledger.Same ledger) (hstate : Contained area.directory start state.files) :
    Confines area documents start ⟨ledger, state⟩ where
  ids document hdocument := by
    rw [hsame.known]
    exact h.ids document hdocument
  contained := hstate

/-- The id of a document's draft is the one that is known, or a new one. -/
theorem inward_idFor (h : Confines area documents start p) (hnew : ∀ n, Inward (area.newId n))
    (hdocument : document ∈ documents) (body parentId : String) (used : Nat) :
    Inward (area.idFor (document.draft (p.ledger.known document.identity) body parentId) used) := by
  unfold StagingArea.idFor Document.draft
  dsimp only
  split
  · exact hnew used
  · exact h.ids document hdocument

/-- A document's turn stays in the staging area. -/
theorem turn (h : Confines area documents start p) (hnew : ∀ n, Inward (area.newId n))
    (hdocument : document ∈ documents)
    (htakes : Takes runner area.publisher document p outcome q) :
    Confines area documents start q := by
  cases htakes with
  | unreadable => exact h
  | stranded _ _ _ hsame | settled _ _ _ hsame | foreseen _ _ _ hsame =>
      exact h.of_same hsame h.contained
  | refused _ _ _ _ hanswer hsame =>
      exact h.of_same hsame
        (contains_publish hanswer (h.inward_idFor hnew hdocument _ _ _) h.contained)
  | @accepted page ledger id remote _ _ _ _ hanswer hrenews =>
      have hinward := h.inward_idFor hnew hdocument page.body
        (runner.pageAbove p.ledger document) p.remote.used
      refine ⟨fun other hother => ?_, contains_publish hanswer hinward h.contained⟩
      rw [← idFor_of_publish hanswer] at hinward
      -- the document's own id is the one it was staged under
      by_cases hunnamed : other.identity = ""
      · rw [Ledger.known, if_pos hunnamed]
        decide
      by_cases hown : other.identity = document.identity
      · rw [Ledger.known_of_named hunnamed, hown, hrenews.own (hown ▸ hunnamed)]
        exact hinward
      · rw [Ledger.known_of_named hunnamed, hrenews.others _ hown, ← Ledger.known_of_named hunnamed]
        exact h.ids other hother

theorem syncAll (h : Confines area documents start p) (hnew : ∀ n, Inward (area.newId n))
    {order : List Document} (horder : order ⊆ documents) :
    Confines area documents start (runner.syncAll area.publisher order p).2 := by
  induction order generalizing p with
  | nil => exact h
  | cons document rest ih =>
      obtain ⟨hdocument, hrest⟩ := List.cons_subset.1 horder
      exact ih (h.turn hnew hdocument (takes_syncDocument runner area.publisher document p)) hrest

end Confines

/-! ## An id that leads out -/

section Beside

variable {directory name : String}

theorem isAbsolute_up (hname : ProperName name) : Files.isAbsolute (join ".." name) = false := by
  rw [Files.isAbsolute_join (by decide) hname]
  decide

theorem plainSteps_beside (directory : String) (hname : ProperName name) :
    Files.plainSteps (join directory (join ".." name))
      = Files.plainSteps directory ++ [.up, .into name] := by
  have hup : Files.plainSteps ".." = [.up] := by decide
  rw [Files.plainSteps_joined directory (isAbsolute_up hname),
    Files.plainSteps_join (by decide) hname, hup, List.singleton_append]

theorem usable_beside (hdirectory : Files.Usable directory) (hname : Allowed name) :
    Files.Usable (join directory (join ".." name)) := by
  have hup : Files.Usable ".." := ⟨by decide, by decide⟩
  have hid := (Files.usable_join hup hname.proper).2 hname.nul
  exact (Files.usable_join_of_relative hdirectory (isAbsolute_up hname.proper)).2 (by
    simpa using hid.1)

/-- A directory can be created beside one that is there. -/
theorem makeDirectories_beside {fs : FileSystem} {folder : String} {above : Place} {left : Nat}
    {inside entries : List (String × Node)} (hat : At fs directory (folder :: above) left)
    (hinside : lookUp fs.root (folder :: above) = some (.directory inside))
    (hentries : lookUp fs.root above = some (.directory entries)) (hname : Allowed name)
    (hfree : Keyed.find? name entries = none) :
    let made := fs.put above name (.directory [])
    fs.makeDirectories (join directory (join ".." name)) = (.ok (), made)
      ∧ ∃ left, At made (join directory (join ".." name)) (name :: above) left := by
  have husable := usable_beside hat.usable hname
  have hsteps := plainSteps_beside directory hname.proper
  have hstart := Files.startOf_join_of_relative fs directory (isAbsolute_up hname.proper)
  generalize join directory (join ".." name) = page at husable hsteps hstart ⊢
  have habove : Node.at? (folder :: above).tail.reverse fs.root = some (.directory entries) :=
    hentries
  have hwalk : fs.walkFrom page false (Files.plainSteps page) = .ok (.vacant above name) := by
    rw [hsteps, Files.walkFrom_append husable (hstart ▸ hat.leads) hinside (by simp)]
    simp only [Files.walk, Node.isDirectory, if_true, habove, if_neg hname.short, hfree]
    rfl
  have hmake : fs.makeDirectory page = .ok (fs.put above name (.directory [])) := by
    rw [Files.makeDirectory_eq, hwalk]
  constructor
  · obtain ⟨outer, houter⟩ := Files.ancestors_cons husable.ne_empty
    rw [FileSystem.makeDirectories, houter, FileSystem.makeMissing, hmake]
  · obtain ⟨_, _, _, hvacant, -, -, -, left', hpage⟩ := Files.vacant_of_makeDirectory hmake
    rw [hwalk] at hvacant
    cases hvacant
    exact ⟨left', hpage⟩

end Beside

/-- A page with an id that goes up is published beside the staging directory. -/
theorem published_beside {area : StagingArea} {state : StagingState} {folder name : String}
    {above : Place} {left : Nat} {inside entries : List (String × Node)}
    (hat : At state.files area.directory (folder :: above) left)
    (hinside : lookUp state.files.root (folder :: above) = some (.directory inside))
    (hentries : lookUp state.files.root above = some (.directory entries)) (hname : Allowed name)
    (hfree : Keyed.find? name entries = none) {draft : Draft}
    (hid : draft.pageId = some (join ".." name)) (hnone : draft.attachments = []) :
    ∃ after, area.publish draft state = (.ok (join ".." name), after)
      ∧ lookUp after.files.root ("page.xml" :: name :: above) = some (.file draft.body.toUTF8)
      ∧ ¬ Within area.directory state.files after.files := by
  obtain ⟨hmake, left', hpage⟩ := makeDirectories_beside hat hinside hentries hname hfree
  generalize hmade : state.files.put above name (.directory []) = made at hmake hpage
  have hthere : lookUp made.root (name :: above) = some (.directory []) :=
    hmade ▸ Files.lookUp_put_below hentries name (.directory []) []
  have hrun := stagePage_empty hpage hthere hmake hnone
  have hbody := Files.lookUp_put_directory hthere "page.xml" (.file draft.body.toUTF8)
  have hfiles :=
    Files.lookUp_put_directory hbody "page.json" (.file (pageDescription draft).toUTF8)
  generalize (made.put (name :: above) "page.xml" _).put (name :: above) "page.json" _ = after
    at hrun hfiles
  have hpublish : area.publish draft state = (.ok (join ".." name), ⟨after, state.used⟩) := by
    rw [publish_eq]
    simp only [StagingArea.idFor, hid, Option.getD_some, hrun]
    rfl
  refine ⟨⟨after, state.used⟩, hpublish, ?_, fun hwithin => ?_⟩
  · rw [Files.lookUp_cons hfiles, Keyed.find?_set_of_ne (by decide), Keyed.find?_set_self]
  -- the page's directory is new, and as far from the root as the staging directory
  · have houtside : ¬ (folder :: above ≠ name :: above ∧ folder :: above <:+ name :: above) :=
      fun h => h.1 (h.2.eq_of_length rfl)
    have halike := hwithin.alike ⟨left, hat.leads⟩ ⟨inside, hinside⟩ houtside
    rw [Files.lookUp_cons hentries, hfree, hfiles] at halike
    cases halike

/-! ## Whole runs -/

/-- **Staging stays in the staging directory, as long as the ids of the pages do.** Below the
staging directory there is no link at first. Then a run changes nothing else, whatever the
documents and the files attached to them: what it creates or overwrites lies below the staging
directory, but for that directory itself and those on the way to it. Where the staging directory
was there, all of it does. The same holds of the next run, since no id leads out afterwards. -/
theorem run_stays_inside {area : StagingArea} {runner : Runner} {documents : List Document}
    {start : Progress StagingState}
    (hids : ∀ document ∈ documents, Inward (start.ledger.known document.identity).id)
    (hnew : ∀ n, Inward (area.newId n)) (henclosed : Enclosed start.remote.files area.directory) :
    let after := (runner.run area.publisher documents start).2
    Within area.directory start.remote.files after.remote.files
      ∧ (∀ base place, start.remote.files.LeadsTo area.directory base →
        DirectoryAt start.remote.files.root base → ¬ (base ≠ place ∧ base <:+ place) →
        Option.Rel Alike (lookUp start.remote.files.root place)
          (lookUp after.remote.files.root place))
      ∧ Enclosed after.remote.files area.directory
      ∧ ∀ document ∈ documents, Inward (after.ledger.known document.identity).id := by
  intro after
  have hstart : Confines area documents start.remote.files start := ⟨hids, .refl henclosed⟩
  have hafter : Confines area documents start.remote.files after :=
    hstart.syncAll hnew fun _ hmem => mem_inOrder.1 hmem
  exact ⟨hafter.contained.within, fun _ _ => hafter.contained.within.alike,
    hafter.contained.enclosed, hafter.ids⟩

/-- A directory that a link leads to, and a file beside them. -/
def linkedArea : FileSystem :=
  { root := .directory
      [("latest", .link "pages"), ("pages", .directory []), ("shot.png", .file .empty)]
    workingDirectory := [] }

theorem leadsTo_linkedArea : linkedArea.LeadsTo "latest" ["pages"] := by
  have hroot : DirectoryAt linkedArea.root [] := ⟨_, rfl⟩
  have hsteps : Files.plainSteps "latest" = [.into "latest"] := by decide
  have htarget : Files.stepsOf "pages" = [.into "pages"] := by decide
  refine ⟨39, ?_⟩
  rw [hsteps]
  refine .link hroot (by decide) rfl ?_
  rw [htarget]
  exact .into hroot (by decide) rfl (by simp) .arrived

theorem enclosed_linkedArea : Enclosed linkedArea "latest" where
  linkFree place node hplace hnode := by
    obtain rfl := hplace.place_eq leadsTo_linkedArea
    obtain rfl := Option.some.inj hnode
    exact .empty
  there_or_down := .inl ⟨["pages"], leadsTo_linkedArea, [], rfl⟩

/-- A page with the file attached to it. -/
def pageNamed (identity : String) : Document where
  source := .virtual
  identity := identity
  title := "Page"
  isIndex := false
  parentTitle := ""
  parentIdentity := ""
  level := 0
  attachments := ["shot.png"]

/-- Pages are staged through a link, one of them under an id that goes up. -/
theorem run_stays_inside_linked :
    let area : StagingArea := ⟨"latest", fun _ => "new"⟩
    let ledger : Ledger := { path := "state.json", entries := [("a.md", { id := "old/../a" })] }
    let documents := [pageNamed "a.md", pageNamed "b.md"]
    let after := (Runner.run {} area.publisher documents ⟨ledger, ⟨linkedArea, 0⟩⟩).2
    (∀ document ∈ documents, Inward (ledger.known document.identity).id)
      ∧ (∀ n, Inward (area.newId n)) ∧ Enclosed linkedArea area.directory
      ∧ ∀ place, ¬ (["pages"] ≠ place ∧ ["pages"] <:+ place) →
        Option.Rel Alike (lookUp linkedArea.root place) (lookUp after.remote.files.root place) := by
  intro area ledger documents after
  have hids : ∀ document ∈ documents, Inward (ledger.known document.identity).id := by decide
  have hnew : ∀ n, Inward (area.newId n) := fun _ => (by decide : Inward "new")
  obtain ⟨-, hrun, -⟩ := @run_stays_inside area {} documents ⟨ledger, ⟨linkedArea, 0⟩⟩ hids hnew
    enclosed_linkedArea
  exact ⟨hids, hnew, enclosed_linkedArea, fun place =>
    hrun ["pages"] place leadsTo_linkedArea ⟨[], rfl⟩⟩

end WikiPress.Sync
