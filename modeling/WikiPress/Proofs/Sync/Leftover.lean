import WikiPress.Proofs.Sync.Hierarchy
import WikiPress.Proofs.Sync.Staging

/-!
# WikiPress.Proofs.Sync.Leftover

The directories in a staging area, and the pages the ledger knows.

A page that is staged is in the ledger. So is every page that is known, and it is in the
staging area. But a page that could not be staged leaves its directory, under an id that nobody
will ask for again: the next run takes a new one.

Design points:

* Which ids are left behind is kept beside the staging area's own state by the publisher itself
  (`StagingArea.auditing`), so that it cannot depend on the files or on the ledger.
* Whatever a turn does, the staging area holds the pages that are known and those that were left
  behind (`Agrees`). Every other action of a history leaves the staging area alone.
* Ids are told apart by their numbers, as far as they were given out. There are only so many
  names a file can have, so no row of ids goes on forever without repeating one.
-/

namespace WikiPress

/-- Whether a page is known to a ledger. -/
def Ledger.Records (ledger : Ledger) (id : String) : Prop :=
  id ≠ "" ∧ ∃ identity, (ledger.entry identity).id = id

namespace Sync

open Relation (ReflTransGen)
open WikiPress.Files (FileSystem Node Place Effect Allowed ProperName Reaches join)

/-! ## What is left behind -/

/-- The publisher that stages pages in a directory, with a note of the new ids of the pages that
could not be staged, the last one first. -/
def StagingArea.auditing (area : StagingArea) : Publisher (StagingState × List String) where
  files state := state.1.files
  publish draft state :=
    match area.publish draft state.1 with
    | (.ok id, after) => (.ok id, (after, state.2))
    | (.error e, after) =>
        (.error e, (after, if draft.pageId = none then area.newId state.1.used :: state.2
          else state.2))

/-- The note makes no difference to a run. -/
theorem auditing_answersAs (area : StagingArea) :
    area.auditing.AnswersAs area.publisher Prod.fst where
  files _ := rfl
  answer draft state := by
    simp only [StagingArea.auditing, StagingArea.publisher]
    split
    · next hanswer => rw [hanswer]
    · next hanswer => rw [hanswer]
  state draft state := by
    simp only [StagingArea.auditing, StagingArea.publisher]
    split
    · next hanswer => rw [hanswer]
    · next hanswer => rw [hanswer]

theorem run_auditing (area : StagingArea) (runner : Runner) (documents : List Document)
    (p : Progress (StagingState × List String)) :
    (runner.run area.auditing documents p).1
        = (runner.run area.publisher documents (p.seen Prod.fst)).1
      ∧ (runner.run area.auditing documents p).2.seen Prod.fst
        = (runner.run area.publisher documents (p.seen Prod.fst)).2 :=
  run_seen (auditing_answersAs area) runner documents p

/-- A page that is staged is not left behind. -/
theorem auditing_publish_ok {area : StagingArea} {draft : Draft}
    {state after : StagingState × List String} {id : String}
    (h : area.auditing.publish draft state = (.ok id, after)) :
    area.publish draft state.1 = (.ok id, after.1) ∧ after.2 = state.2 := by
  simp only [StagingArea.auditing] at h
  generalize area.publish draft state.1 = published at h ⊢
  obtain ⟨_ | given, staged⟩ := published
  · cases h
  · cases h
    exact ⟨rfl, rfl⟩

/-- A new page that cannot be staged is left behind. -/
theorem auditing_publish_error {area : StagingArea} {draft : Draft}
    {state after : StagingState × List String} {e : PublishError}
    (h : area.auditing.publish draft state = (.error e, after)) :
    area.publish draft state.1 = (.error e, after.1)
      ∧ after.2 = if draft.pageId = none then area.newId state.1.used :: state.2
        else state.2 := by
  simp only [StagingArea.auditing] at h
  generalize area.publish draft state.1 = published at h ⊢
  obtain ⟨reason | _, staged⟩ := published
  · cases h
    exact ⟨rfl, rfl⟩
  · cases h

/-! ## One turn -/

variable {area : StagingArea}

/-- Whether the first ids of a staging area are different. -/
def Distinct (area : StagingArea) (used : Nat) : Prop :=
  ∀ m < used, ∀ n < used, area.newId m = area.newId n → m = n

theorem Distinct.mono {few many : Nat} (h : Distinct area many) (hle : few ≤ many) :
    Distinct area few :=
  fun m hm n hn => h m (lt_of_lt_of_le hm hle) n (lt_of_lt_of_le hn hle)

/-- Whether a staging area went on from one state to another: no id was taken back, and what was
left behind then is still there. -/
structure Onward (before after : StagingState × List String) : Prop where
  used : before.1.used ≤ after.1.used
  left : before.2 <:+ after.2

theorem Onward.refl (state : StagingState × List String) : Onward state state :=
  ⟨le_rfl, List.suffix_rfl⟩

theorem Onward.trans {a b c : StagingState × List String} (h : Onward a b) (h' : Onward b c) :
    Onward a c :=
  ⟨h.used.trans h'.used, h.left.trans h'.left⟩

theorem onward_publish {draft : Draft} {state after : StagingState × List String}
    {answer : Except PublishError String}
    (h : area.auditing.publish draft state = (answer, after)) : Onward state after := by
  have hused : state.1.used ≤ (area.publish draft state.1).2.used := by
    rw [(publish_staged area draft state.1).2.1]
    split
    · exact Nat.le_succ _
    · exact le_rfl
  cases answer with
  | error e =>
      obtain ⟨hpublish, hleft⟩ := auditing_publish_error h
      rw [hpublish] at hused
      refine ⟨hused, ?_⟩
      rw [hleft]
      split
      · exact List.suffix_cons _ _
      · exact List.suffix_rfl
  | ok id =>
      obtain ⟨hpublish, hleft⟩ := auditing_publish_ok h
      rw [hpublish] at hused
      exact ⟨hused, hleft ▸ List.suffix_rfl⟩

theorem onward_turn {runner : Runner} {document : Document}
    {p q : Progress (StagingState × List String)} {outcome : Outcome}
    (h : Takes runner area.auditing document p outcome q) : Onward p.remote q.remote := by
  cases h with
  | unreadable | stranded | settled | foreseen => exact .refl _
  | refused _ _ _ _ hanswer | accepted _ _ _ _ hanswer => exact onward_publish hanswer

theorem onward_syncAll (runner : Runner) (area : StagingArea) (order : List Document)
    (p : Progress (StagingState × List String)) :
    Onward p.remote (runner.syncAll area.auditing order p).2.remote := by
  induction order generalizing p with
  | nil => exact .refl _
  | cons document rest ih =>
      exact (onward_turn (takes_syncDocument runner area.auditing document p)).trans (ih _)

/-- Whether the staging area holds the pages that are known and those that were left behind. -/
structure Agrees (area : StagingArea) (p : Progress (StagingState × List String)) : Prop where
  holds : Holds p.remote.1.files area.directory fun id => p.ledger.Records id ∨ id ∈ p.remote.2
  /-- Every id was given out. -/
  issued : ∀ id, p.ledger.Records id ∨ id ∈ p.remote.2 →
    ∃ n < p.remote.1.used, id = area.newId n
  apart : ∀ id ∈ p.remote.2, ¬ p.ledger.Records id
  ascending : Keyed.Ascending p.ledger.entries

theorem records_of_same {before after : Ledger} (h : before.Same after) (id : String) :
    after.Records id ↔ before.Records id := by
  simp only [Ledger.Records, h.entry]

/-- A page that is published is known, and no other one is forgotten. -/
theorem records_of_renews {before after : Ledger} {identity : String} {value : Entry}
    (h : before.Renews after identity value) (hnamed : identity ≠ "")
    (hkeeps : (before.entry identity).id = "" ∨ (before.entry identity).id = value.id)
    (id : String) : after.Records id ↔ before.Records id ∨ id ≠ "" ∧ id = value.id := by
  constructor
  · rintro ⟨hid, other, rfl⟩
    by_cases hother : other = identity
    · subst hother
      rw [h.own hnamed] at hid ⊢
      exact Or.inr ⟨hid, rfl⟩
    · rw [h.others other hother] at hid ⊢
      exact Or.inl ⟨hid, other, rfl⟩
  · rintro (⟨hid, other, rfl⟩ | ⟨hid, rfl⟩)
    · by_cases hother : other = identity
      · subst hother
        refine ⟨hid, other, ?_⟩
        rw [h.own hnamed, hkeeps.resolve_left hid]
      · exact ⟨hid, other, by rw [h.others other hother]⟩
    · exact ⟨hid, identity, by rw [h.own hnamed]⟩

namespace Agrees

variable {p q : Progress (StagingState × List String)} {runner : Runner} {document : Document}
  {outcome : Outcome}

theorem of_same (h : Agrees area p) {ledger : Ledger} (hsame : p.ledger.Same ledger) :
    Agrees area ⟨ledger, p.remote⟩ where
  holds := h.holds.congr fun id => or_congr_left (records_of_same hsame id).symm
  issued id hid := h.issued id (hid.imp_left (records_of_same hsame id).1)
  apart id hid hrecords := h.apart id hid ((records_of_same hsame id).1 hrecords)
  ascending := hsame.ascending h.ascending

/-- An id that is yet to be given out is no page's. -/
theorem fresh (h : Agrees area p) (hdistinct : Distinct area (p.remote.1.used + 1)) {id : String}
    (hid : p.ledger.Records id ∨ id ∈ p.remote.2) : id ≠ area.newId p.remote.1.used := by
  rintro rfl
  obtain ⟨n, hn, heq⟩ := h.issued _ hid
  have hsame := hdistinct _ (Nat.lt_succ_self _) n (Nat.lt_succ_of_lt hn) heq
  omega

/-- A page that was known could be staged or could not. It is known still. -/
theorem of_known (h : Agrees area p) {id : String} (hid : p.ledger.Records id)
    (hallowed : Allowed id) {draft : Draft} {ledger : Ledger} {after : StagingState}
    (hfiles : after.files = ((stagePage (join area.directory id) draft).run p.remote.1.files).2)
    (hused : after.used = p.remote.1.used)
    (hrecords : ∀ other, ledger.Records other ↔ p.ledger.Records other)
    (hordered : Keyed.Ascending ledger.entries) : Agrees area ⟨ledger, (after, p.remote.2)⟩ where
  holds := by
    show Holds after.files _ _
    rw [hfiles]
    refine (h.holds.stagePage hallowed draft).congr fun other => ?_
    rw [hrecords]
    refine ⟨fun hother => hother.elim (fun hother => hother) ?_, Or.inl⟩
    rintro rfl
    exact Or.inl hid
  issued other hother := by
    obtain ⟨n, hn, heq⟩ := h.issued other (hother.imp_left (hrecords other).1)
    exact ⟨n, hused ▸ hn, heq⟩
  apart other hother hknown := h.apart other hother ((hrecords other).1 hknown)
  ascending := hordered

/-- A new page is known if it could be staged, and left behind if it could not. -/
theorem of_new (h : Agrees area p) (hallowed : Allowed (area.newId p.remote.1.used))
    (hdistinct : Distinct area (p.remote.1.used + 1)) {draft : Draft} {ledger : Ledger}
    {after : StagingState × List String}
    (hfiles : after.1.files = ((stagePage (join area.directory (area.newId p.remote.1.used))
      draft).run p.remote.1.files).2)
    (hused : after.1.used = p.remote.1.used + 1)
    (hnoted : (∀ id, ledger.Records id
          ↔ p.ledger.Records id ∨ id ≠ "" ∧ id = area.newId p.remote.1.used)
        ∧ after.2 = p.remote.2
      ∨ (∀ id, ledger.Records id ↔ p.ledger.Records id)
        ∧ after.2 = area.newId p.remote.1.used :: p.remote.2)
    (hordered : Keyed.Ascending ledger.entries) : Agrees area ⟨ledger, after⟩ := by
  have hnonempty : area.newId p.remote.1.used ≠ "" := hallowed.proper.nonempty
  -- in either case there is one page more
  have hids : ∀ id, ledger.Records id ∨ id ∈ after.2
      ↔ (p.ledger.Records id ∨ id ∈ p.remote.2) ∨ id = area.newId p.remote.1.used := by
    intro id
    rcases hnoted with ⟨hrecords, hleft⟩ | ⟨hrecords, hleft⟩
    · rw [hrecords, hleft, or_right_comm]
      refine or_congr_right ⟨And.right, fun heq => ⟨heq ▸ hnonempty, heq⟩⟩
    · rw [hrecords, hleft, List.mem_cons, or_assoc, or_comm (a := id ∈ p.remote.2)]
  refine ⟨?_, fun id hid => ?_, fun id hid hknown => ?_, hordered⟩
  · show Holds after.1.files _ _
    rw [hfiles]
    exact (h.holds.stagePage hallowed draft).congr fun id => (hids id).symm
  · show ∃ n < after.1.used, _
    rw [hused]
    rcases (hids id).1 hid with hearlier | rfl
    · obtain ⟨n, hn, heq⟩ := h.issued id hearlier
      exact ⟨n, Nat.lt_succ_of_lt hn, heq⟩
    · exact ⟨_, Nat.lt_succ_self _, rfl⟩
  · rcases hnoted with ⟨hrecords, hleft⟩ | ⟨hrecords, hleft⟩
    · have hbefore : id ∈ p.remote.2 := hleft ▸ hid
      rcases (hrecords id).1 hknown with hearlier | ⟨-, rfl⟩
      · exact h.apart id hbefore hearlier
      · exact h.fresh hdistinct (Or.inr hbefore) rfl
    · have hearlier := (hrecords id).1 hknown
      rcases List.mem_cons.1 (hleft ▸ hid) with rfl | hbefore
      · exact h.fresh hdistinct (Or.inl hearlier) rfl
      · exact h.apart id hbefore hearlier

/-- A document's draft is staged or left behind, as its ledger then says. -/
theorem staged (hallowed : ∀ n, Allowed (area.newId n)) (h : Agrees area p)
    {body parentId : String} {ledger : Ledger} {answer : Except PublishError String}
    {after : StagingState × List String}
    (hanswer : area.auditing.publish (document.draft (p.ledger.entry document.identity) body
      parentId) p.remote = (answer, after))
    (hnamed : document.identity ≠ "") (hdistinct : Distinct area after.1.used)
    (hordered : Keyed.Ascending ledger.entries)
    (hrefused : ∀ e, answer = .error e → p.ledger.Same ledger)
    (haccepted : ∀ id, answer = .ok id →
      ∃ hash, p.ledger.Renews ledger document.identity { id, hash, parentId }) :
    Agrees area ⟨ledger, after⟩ := by
  have hpageId : (document.draft (p.ledger.entry document.identity) body parentId).pageId
      = if (p.ledger.entry document.identity).isNew then none
        else some (p.ledger.entry document.identity).id := rfl
  generalize document.draft (p.ledger.entry document.identity) body parentId = draft
    at hanswer hpageId
  obtain ⟨hfiles, hused, hid⟩ := publish_staged area draft p.remote.1
  by_cases hnew : (p.ledger.entry document.identity).id = ""
  · rw [if_pos (by simp [Entry.isNew, hnew])] at hpageId
    simp only [StagingArea.idFor, hpageId, Option.getD_none, if_true] at hfiles hused hid
    cases answer with
    | error e =>
        obtain ⟨hpublish, hleft⟩ := auditing_publish_error hanswer
        rw [hpublish] at hfiles hused
        exact h.of_new (hallowed _) (hused ▸ hdistinct) hfiles hused
          (Or.inr ⟨records_of_same (hrefused e rfl), hleft.trans (if_pos hpageId)⟩) hordered
    | ok given =>
        obtain ⟨hpublish, hleft⟩ := auditing_publish_ok hanswer
        obtain ⟨hash, hrenews⟩ := haccepted given rfl
        rw [hpublish] at hfiles hused hid
        obtain rfl := hid given rfl
        exact h.of_new (hallowed _) (hused ▸ hdistinct) hfiles hused
          (Or.inl ⟨records_of_renews hrenews hnamed (Or.inl hnew), hleft⟩) hordered
  · rw [if_neg (by simpa [Entry.isNew] using hnew)] at hpageId
    simp only [StagingArea.idFor, hpageId, Option.getD_some, if_neg (Option.some_ne_none _)]
      at hfiles hused hid
    have hrecorded : p.ledger.Records (p.ledger.entry document.identity).id :=
      ⟨hnew, document.identity, rfl⟩
    obtain ⟨n, -, hissued⟩ := h.issued _ (Or.inl hrecorded)
    have hallow : Allowed (p.ledger.entry document.identity).id := hissued ▸ hallowed n
    obtain ⟨staged, left⟩ := after
    cases answer with
    | error e =>
        obtain ⟨hpublish, hleft⟩ := auditing_publish_error hanswer
        rw [hpublish] at hfiles hused
        obtain rfl : left = p.remote.2 := hleft.trans (if_neg (by simp [hpageId]))
        exact h.of_known hrecorded hallow hfiles hused (records_of_same (hrefused e rfl)) hordered
    | ok given =>
        obtain ⟨hpublish, hleft⟩ := auditing_publish_ok hanswer
        obtain ⟨hash, hrenews⟩ := haccepted given rfl
        rw [hpublish] at hfiles hused hid
        obtain rfl := hid given rfl
        obtain rfl : left = p.remote.2 := hleft
        refine h.of_known hrecorded hallow hfiles hused (fun id => ?_) hordered
        rw [records_of_renews hrenews hnamed (Or.inr rfl)]
        exact or_iff_left_of_imp fun hnow => hnow.2 ▸ hrecorded

/-- A turn of a document with a name keeps the staging area and the ledger in agreement. -/
theorem turn (hallowed : ∀ n, Allowed (area.newId n)) (h : Agrees area p)
    (hnamed : document.identity ≠ "") (htakes : Takes runner area.auditing document p outcome q)
    (hdistinct : Distinct area q.remote.1.used) : Agrees area q := by
  have hordered := htakes.ascending h.ascending
  have hknown : p.ledger.known document.identity = p.ledger.entry document.identity :=
    Ledger.known_of_named hnamed
  cases htakes with
  | unreadable => exact h
  | stranded _ _ _ hsame | settled _ _ _ hsame | foreseen _ _ _ hsame => exact h.of_same hsame
  | refused _ _ _ _ hanswer hsame =>
      rw [hknown] at hanswer
      exact h.staged hallowed hanswer hnamed hdistinct hordered (fun _ _ => hsame) nofun
  | accepted _ _ _ _ hanswer hrenews =>
      rw [hknown] at hanswer
      exact h.staged hallowed hanswer hnamed hdistinct hordered nofun fun id hid => by
        cases hid
        exact ⟨_, hrenews⟩

/-- So does one document after another. -/
theorem syncAll (hallowed : ∀ n, Allowed (area.newId n)) {order : List Document}
    (hnamed : ∀ document ∈ order, document.identity ≠ "") (h : Agrees area p)
    (hdistinct : Distinct area (runner.syncAll area.auditing order p).2.remote.1.used) :
    Agrees area (runner.syncAll area.auditing order p).2 := by
  induction order generalizing p with
  | nil => exact h
  | cons document rest ih =>
      obtain ⟨hfirst, hnamed⟩ := List.forall_mem_cons.1 hnamed
      have htakes := takes_syncDocument runner area.auditing document p
      exact ih hnamed (h.turn hallowed hfirst htakes
        (hdistinct.mono (onward_syncAll runner area rest _).used)) hdistinct

end Agrees

/-! ## Histories -/

/-- Whether a change elsewhere leaves a staging directory alone, or the way to it if it is still
to be created. -/
structure LeftAlone (directory : String) (before after : FileSystem) : Prop where
  node : after.node directory = before.node directory
  creatable : Creatable before directory → Creatable after directory

theorem Holds.leftAlone {before after : FileSystem} {directory : String} {ids : String → Prop}
    (h : Holds before directory ids) (halone : LeftAlone directory before after) :
    Holds after directory ids := by
  cases h with
  | there hnode hfree hdirectories hids =>
      exact .there (halone.node.trans hnode) hfree hdirectories hids
  | missing hnode hcreatable hnone =>
      exact .missing (halone.node.trans hnode) (halone.creatable hcreatable) hnone

/-- One action in the history of a staging area that nothing but runs writes to. -/
inductive StagingStep (area : StagingArea) : Progress (StagingState × List String) →
    Progress (StagingState × List String) → Prop
  /-- Documents with names are synced. -/
  | run (runner : Runner) {documents : List Document}
      {p : Progress (StagingState × List String)} :
      (∀ document ∈ documents, document.identity ≠ "") →
      StagingStep area p (runner.run area.auditing documents p).2
  /-- The ledger is saved and loaded again. -/
  | reload {p : Progress (StagingState × List String)} {saved : FileSystem} :
      p.ledger.persist p.remote.1.files = (.ok (), saved) → Reaches saved p.ledger.path →
      LeftAlone area.directory p.remote.1.files saved →
      StagingStep area p ⟨(Ledger.load saved p.ledger.path).ledger,
        ({ p.remote.1 with files := saved }, p.remote.2)⟩
  /-- Other files are edited. -/
  | edit {p : Progress (StagingState × List String)} {edited : FileSystem} :
      LeftAlone area.directory p.remote.1.files edited →
      StagingStep area p ⟨p.ledger, ({ p.remote.1 with files := edited }, p.remote.2)⟩

/-- The start of a history: an empty ledger, no id given out and nothing left behind. -/
def unstaged (path : String) (fs : FileSystem) : Progress (StagingState × List String) where
  ledger := { path }
  remote := (⟨fs, 0⟩, [])

theorem agrees_unstaged {fs : FileSystem} (hempty : Holds fs area.directory fun _ => False)
    (path : String) : Agrees area (unstaged path fs) where
  holds := hempty.congr fun id => by simp [unstaged, Ledger.Records, Ledger.entry]
  issued id hid := by simp [unstaged, Ledger.Records, Ledger.entry] at hid
  apart id hid := absurd hid List.not_mem_nil
  ascending := .nil

theorem onward_step {p q : Progress (StagingState × List String)} (h : StagingStep area p q) :
    Onward p.remote q.remote := by
  cases h with
  | run runner _ => exact onward_syncAll runner area _ p
  | reload | edit => exact ⟨le_rfl, List.suffix_rfl⟩

theorem onward_steps {p q : Progress (StagingState × List String)}
    (h : ReflTransGen (StagingStep area) p q) : Onward p.remote q.remote := by
  induction h with
  | refl => exact .refl _
  | tail _ hstep ih => exact ih.trans (onward_step hstep)

theorem Agrees.step {p q : Progress (StagingState × List String)}
    (hallowed : ∀ n, Allowed (area.newId n)) (h : Agrees area p)
    (hstep : StagingStep area p q) (hdistinct : Distinct area q.remote.1.used) :
    Agrees area q := by
  cases hstep with
  | run runner hnamed =>
      exact h.syncAll hallowed (fun document hmem => hnamed document (mem_inOrder.1 hmem)) hdistinct
  | @reload _ saved hsaved hreaches halone =>
      have hsame : p.ledger.Same (Ledger.load saved p.ledger.path).ledger := by
        rw [Ledger.load_persist h.ascending hsaved hreaches]
        exact ⟨fun _ => rfl, fun hordered => hordered⟩
      have hloaded := h.of_same hsame
      exact ⟨hloaded.holds.leftAlone halone, hloaded.issued, hloaded.apart, hloaded.ascending⟩
  | edit halone => exact ⟨h.holds.leftAlone halone, h.issued, h.apart, h.ascending⟩

theorem Agrees.steps {p q : Progress (StagingState × List String)}
    (hallowed : ∀ n, Allowed (area.newId n)) (h : Agrees area p)
    (hsteps : ReflTransGen (StagingStep area) p q) (hdistinct : Distinct area q.remote.1.used) :
    Agrees area q := by
  induction hsteps with
  | refl => exact h
  | tail _ hstep ih =>
      exact (ih (hdistinct.mono (onward_step hstep).used)).step hallowed hstep hdistinct

/-! ## What there is to upload -/

/-- The names of the directories in a directory. An upload takes them for ids of pages. -/
def pagesIn (fs : FileSystem) (directory : String) : List String :=
  match fs.node directory with
  | .ok (.directory entries) => (entries.filter (·.2.isDirectory)).map Prod.fst
  | _ => []

theorem Holds.mem_pagesIn {fs : FileSystem} {directory : String} {ids : String → Prop}
    (h : Holds fs directory ids) (id : String) : id ∈ pagesIn fs directory ↔ ids id := by
  cases h with
  | there hnode _ hdirectories hids =>
      rw [pagesIn, hnode]
      dsimp only
      rw [List.filter_eq_self.2 hdirectories, hids]
  | missing hnode _ hnone =>
      rw [pagesIn, hnode]
      simp [hnone id]

/-- Whether the directories of a staging area are those of the pages that are known. -/
def InStep (area : StagingArea) (p : Progress (StagingState × List String)) : Prop :=
  ∀ id, id ∈ pagesIn p.remote.1.files area.directory ↔ p.ledger.Records id

/-- A staging area is in step with the ledger if nothing was left behind in it. -/
theorem Agrees.inStep_iff {p : Progress (StagingState × List String)} (h : Agrees area p) :
    InStep area p ↔ p.remote.2 = [] := by
  constructor
  · intro hstep
    rw [List.eq_nil_iff_forall_not_mem]
    intro id hid
    exact h.apart id hid ((hstep id).1 ((h.holds.mem_pagesIn id).2 (Or.inr hid)))
  · intro hnone id
    rw [h.holds.mem_pagesIn, hnone]
    simp

/-! ## A page that cannot be staged -/

/-- Whether a program fails on files that are as they should be. -/
def Fails {ε : Type} (P : FileSystem → Prop) (program : Effect ε Unit) : Prop :=
  ∀ fs, P fs → ∃ e after, program.run fs = (.error e, after)

section Fails

variable {ε : Type} {P : FileSystem → Prop} {first second : Effect ε Unit}

theorem Fails.atFirst (h : Fails P first) : Fails P (do first; second) := by
  intro fs hfs
  obtain ⟨e, after, hrun⟩ := h fs hfs
  exact ⟨e, after, by rw [run_then, hrun]⟩

theorem Fails.atSecond (hkeeps : Keeps P first) (h : Fails P second) :
    Fails P (do first; second) := by
  intro fs hfs
  have hmid := hkeeps fs hfs
  rw [run_then]
  split
  · next after hfirst =>
      rw [hfirst] at hmid
      exact h after hmid
  · next e after _ => exact ⟨e, after, rfl⟩

end Fails

/-- A directory cannot be copied, so a page that is to go with the staging area itself cannot be
staged. -/
theorem fails_copyInto {directory name : String} {place : Place} {left : Nat}
    {ids : String → Prop} (hname : Files.fileName directory = some name) (around : String) :
    Fails (Staged directory place left ids) (copyInto around directory) := by
  intro fs h
  obtain ⟨entries, hentries, -⟩ := h.holds
  have hnode := Files.node_eq_directory_iff.2 ⟨place, left, h.reached, hentries⟩
  have hcopy : fs.copy directory (join around name) = .error .notRegular := by
    simp only [FileSystem.copy, hnode, bind, Except.bind]
  refine ⟨.io directory .notRegular, fs, ?_⟩
  unfold copyInto
  simp only [hname]
  exact run_change_error hcopy

theorem fails_stagePage {directory id name : String} {place : Place} {left : Nat}
    {ids : String → Prop} {fs made : FileSystem}
    (hmake : fs.makeDirectories (join directory id) = (.ok (), made))
    (h : Staged directory place left ids made) (hid : Allowed id) (hknown : ids id)
    (hname : Files.fileName directory = some name) {draft : Draft}
    (hattached : draft.attachments = [directory]) :
    ∃ e after, (stagePage (join directory id) draft).run fs = (.error e, after) := by
  have hdirectory : directory ≠ "" := h.reached.usable.ne_empty
  have hattachments : Allowed "attachments" := by decide
  have hcopy : Fails (Staged directory place left ids)
      (copyAll (join (join directory id) "attachments") draft.attachments) := by
    rw [hattached]
    exact .atSecond (keeps_makeDirectories fun fs h => h.makeInside hid hknown hattachments)
      (.atFirst (fails_copyInto hname _))
  have hbody : ProperName "page.xml" := by decide
  have hdescription : ProperName "page.json" := by decide
  have hrest := Fails.atSecond (keeps_pageFile hdirectory hid hbody draft.body)
    (.atSecond (keeps_pageFile hdirectory hid hdescription (pageDescription draft)) hcopy)
  rw [run_stagePage hmake]
  exact hrest made h

/-- So a draft of a new page of this kind is refused, and its directory stays. -/
theorem refuses_itself {name : String} {p : Progress (StagingState × List String)}
    (hallowed : ∀ n, Allowed (area.newId n)) (h : Agrees area p)
    (hname : Files.fileName area.directory = some name) {draft : Draft}
    (hpageId : draft.pageId = none) (hattached : draft.attachments = [area.directory]) :
    ∃ e after, area.auditing.publish draft p.remote = (.error e, after)
      ∧ after.1.used = p.remote.1.used + 1
      ∧ after.2 = area.newId p.remote.1.used :: p.remote.2 := by
  obtain ⟨made, place, left, hmake, hstaged⟩ := h.holds.makePage (hallowed p.remote.1.used)
  obtain ⟨e, files, hrun⟩ :=
    fails_stagePage hmake hstaged (hallowed _) (Or.inr rfl) hname hattached
  have hpublish : area.publish draft p.remote.1 = (.error e, ⟨files, p.remote.1.used + 1⟩) := by
    unfold StagingArea.publish
    simp only [hpageId, hrun]
  refine ⟨e, (⟨files, p.remote.1.used + 1⟩, area.newId p.remote.1.used :: p.remote.2), ?_, rfl, rfl⟩
  simp only [StagingArea.auditing, hpublish, hpageId, if_true]

/-- Such a page is left behind whenever it is tried as a new one. -/
theorem left_behind_turn {document : Document} {name : String}
    {p q : Progress (StagingState × List String)} {outcome : Outcome}
    (hallowed : ∀ n, Allowed (area.newId n)) (h : Agrees area p)
    (hname : Files.fileName area.directory = some name) (hnamed : document.identity ≠ "")
    (hsource : document.source = .virtual) (htop : document.parentIdentity = "")
    (hattached : document.attachments = [area.directory])
    (hnew : (p.ledger.entry document.identity).id = "")
    (htakes : Takes {} area.auditing document p outcome q) :
    p.ledger.Same q.ledger ∧ q.remote.1.used = p.remote.1.used + 1
      ∧ q.remote.2 = area.newId p.remote.1.used :: p.remote.2 := by
  have hisNew : (p.ledger.known document.identity).isNew = true := by
    rw [Ledger.known_of_named hnamed, Entry.isNew, hnew]
    rfl
  have hrefuses : ∀ body parentId,
      (document.draft (p.ledger.known document.identity) body parentId).pageId = none :=
    fun body parentId => if_pos hisNew
  cases htakes with
  | unreadable hpage =>
      rw [Runner.render, hsource] at hpage
      cases hpage
  | stranded _ _ hstranded => exact absurd (Or.inl htop) hstranded
  | settled _ _ hsettled => cases hsettled.published.symm.trans hisNew
  | foreseen _ hdry => cases hdry
  | refused _ _ _ _ hanswer hsame =>
      obtain ⟨e, after, hpublish, hused, hleft⟩ :=
        refuses_itself hallowed h hname (hrefuses _ _) hattached
      rw [hpublish] at hanswer
      cases hanswer
      exact ⟨hsame, hused, hleft⟩
  | accepted _ _ _ _ hanswer =>
      obtain ⟨e, after, hpublish, -⟩ := refuses_itself hallowed h hname (hrefuses _ _) hattached
      rw [hpublish] at hanswer
      cases hanswer

/-- A staging area that goes with a page into itself. -/
def entangled : StagingArea where
  directory := "out"
  newId n := if n = 0 then "a" else "b"

/-- The page that goes with. -/
def knot : Document where
  source := .virtual
  identity := "knot"
  title := "Knot"
  isIndex := false
  parentTitle := ""
  parentIdentity := ""
  level := 0
  attachments := ["out"]

/-- An empty staging area. -/
def emptyArea : FileSystem :=
  { root := .directory [("out", .directory [])], workingDirectory := [] }

theorem node_emptyArea : emptyArea.node "out" = .ok (.directory []) :=
  Files.node_of_names ["out"] ⟨by decide, by decide⟩ (by decide) rfl (by decide) rfl (by simp)

theorem allowed_entangled (n : Nat) : Allowed (entangled.newId n) := by
  have ha : Allowed "a" := by decide
  have hb : Allowed "b" := by decide
  unfold entangled
  dsimp only
  split
  · exact ha
  · exact hb

theorem distinct_entangled : Distinct entangled 2 := by
  unfold Distinct
  decide

theorem holds_emptyArea : Holds emptyArea entangled.directory fun _ => False :=
  .there node_emptyArea .empty
    (fun _ hentry => absurd hentry List.not_mem_nil) (by simp)

theorem knot_left_behind {p : Progress (StagingState × List String)} (h : Agrees entangled p)
    (hnew : (p.ledger.entry knot.identity).id = "") :
    ∃ q, StagingStep entangled p q ∧ p.ledger.Same q.ledger
      ∧ q.remote.1.used = p.remote.1.used + 1
      ∧ q.remote.2 = entangled.newId p.remote.1.used :: p.remote.2 := by
  have hname : Files.fileName entangled.directory = some "out" := by decide
  have hnamed : ∀ document ∈ [knot], document.identity ≠ "" := by decide
  have htakes := takes_syncDocument {} entangled.auditing knot p
  have hrun : (Runner.run {} entangled.auditing [knot] p).2
      = (Runner.syncDocument {} entangled.auditing knot p).2.2 := by
    simp [Runner.run, inOrder, Runner.syncAll]
  exact ⟨_, .run {} hnamed, hrun ▸ left_behind_turn allowed_entangled h hname
    (hnamed knot (List.mem_singleton.2 rfl)) rfl rfl rfl hnew htakes⟩

/-! ## Whole histories -/

/-- At every point of a history a staging area has the directories of the pages that are known,
and besides them one for each new page that could not be staged, under an id that is no page's.
So it is in step with the ledger as long as every new page could be staged, and never again
after one that could not. -/
theorem pages_known_or_left_behind {area : StagingArea} (hallowed : ∀ n, Allowed (area.newId n))
    {fs : FileSystem} (hempty : Holds fs area.directory fun _ => False) {path : String}
    {p : Progress (StagingState × List String)}
    (hsteps : ReflTransGen (StagingStep area) (unstaged path fs) p)
    (hdistinct : Distinct area p.remote.1.used) :
    (∀ id, id ∈ pagesIn p.remote.1.files area.directory
        ↔ p.ledger.Records id ∨ id ∈ p.remote.2)
      ∧ (∀ id ∈ p.remote.2, ¬ p.ledger.Records id)
      ∧ (InStep area p ↔ p.remote.2 = [])
      ∧ ∀ q, ReflTransGen (StagingStep area) p q → Distinct area q.remote.1.used →
          InStep area q → InStep area p := by
  have hp := (agrees_unstaged hempty path).steps hallowed hsteps hdistinct
  refine ⟨hp.holds.mem_pagesIn, hp.apart, hp.inStep_iff, fun q hlater hdistinct hq => ?_⟩
  have hafter := (hp.steps hallowed hlater hdistinct).inStep_iff.1 hq
  exact hp.inStep_iff.2 (List.suffix_nil.1 (hafter ▸ (onward_steps hlater).left))

/-- The page is tried twice, and a directory is left each time. -/
theorem pages_known_or_left_behind_knot :
    ∃ p, ReflTransGen (StagingStep entangled) (unstaged "state.json" emptyArea) p
      ∧ (∀ id, ¬ p.ledger.Records id) ∧ "a" ∈ pagesIn p.remote.1.files "out"
      ∧ "b" ∈ pagesIn p.remote.1.files "out" ∧ ¬ InStep entangled p := by
  have hstart : Agrees entangled (unstaged "state.json" emptyArea) :=
    agrees_unstaged holds_emptyArea "state.json"
  obtain ⟨p, hfirst, hsame, hused, hleft⟩ := knot_left_behind hstart rfl
  have hp : Agrees entangled p := hstart.step allowed_entangled hfirst
    (hused ▸ distinct_entangled.mono (by decide))
  obtain ⟨q, hsecond, hagain, hused', hleft'⟩ :=
    knot_left_behind hp (by rw [hsame.entry]; rfl)
  rw [hused] at hused' hleft'
  rw [hleft] at hleft'
  have hsteps := (ReflTransGen.single hfirst).tail hsecond
  obtain ⟨hpages, hapart, hstep, -⟩ := pages_known_or_left_behind allowed_entangled
    holds_emptyArea hsteps (hused' ▸ distinct_entangled)
  refine ⟨q, hsteps, fun id hid => ?_, (hpages "a").2 (Or.inr ?_), (hpages "b").2 (Or.inr ?_), ?_⟩
  · have hbefore := (records_of_same (hsame.trans hagain) id).1 hid
    simp [unstaged, Ledger.Records, Ledger.entry] at hbefore
  · rw [hleft']
    decide
  · rw [hleft']
    decide
  · rw [hstep, hleft']
    decide

end Sync

end WikiPress
