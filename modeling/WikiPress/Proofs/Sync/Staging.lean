import WikiPress.Proofs.Files.LinkFree
import WikiPress.Sync.Staging

/-!
# WikiPress.Proofs.Sync.Staging

What staging a page does to the staging directory.

Design points:

* What is staged is in a tree without links below the staging directory (`Staged`). There a path
  leads where its names say, so nothing outside the page's own directory is touched, whether
  staging succeeds or not (`Keeps`).
* The directory of a page is created first, and that never fails where the id can be a name
  (`Staged.makePage`). What fails comes after, so a page that could not be staged leaves its
  directory.
-/

namespace WikiPress.Sync

open WikiPress.Files (FileSystem FileError Effect Node Place Step At Allowed ProperName Extends
  Behind lookUp join fileName)

/-! ## Programs that keep something -/

section Keeps

variable {ε : Type}

/-- Whether a program leaves files as they should be, whether or not it fails. -/
def Keeps (P : FileSystem → Prop) (program : Effect ε Unit) : Prop :=
  ∀ fs, P fs → P (program.run fs).2

/-- One program after another. -/
theorem run_then (first second : Effect ε Unit) (fs : FileSystem) :
    (do first; second : Effect ε Unit).run fs = match first.run fs with
      | (.ok (), after) => second.run after
      | (.error e, after) => (.error e, after) := by
  have h : (do first; second : Effect ε Unit).run.run fs = match first.run.run fs with
      | (.ok (), after) => second.run.run after
      | (.error e, after) => (.error e, after) := by
    rw [ExceptT.run_bind, StateT.run_bind]
    rcases first.run.run fs with ⟨answer | answer, after⟩
    · rfl
    · rfl
  exact h

theorem run_then_ok {first second : Effect ε Unit} {fs after : FileSystem}
    (h : (do first; second : Effect ε Unit).run fs = (.ok (), after)) :
    ∃ between, first.run fs = (.ok (), between) ∧ second.run between = (.ok (), after) := by
  rw [run_then] at h
  split at h
  · next between hfirst => exact ⟨between, hfirst, h⟩
  · cases h

theorem run_change_ok {failure : FileError → ε} {op : FileSystem → Except FileError FileSystem}
    {fs after : FileSystem} (h : op fs = .ok after) :
    (Files.change failure op).run fs = (.ok (), after) := by
  simp only [Files.change, ExceptT.run_mk, h]

theorem run_change_error {failure : FileError → ε}
    {op : FileSystem → Except FileError FileSystem} {fs : FileSystem} {e : FileError}
    (h : op fs = .error e) : (Files.change failure op).run fs = (.error (failure e), fs) := by
  simp only [Files.change, ExceptT.run_mk, h]

theorem run_change_iff {failure : FileError → ε} {op : FileSystem → Except FileError FileSystem}
    {fs after : FileSystem} :
    (Files.change failure op).run fs = (.ok (), after) ↔ op fs = .ok after := by
  refine ⟨fun hrun => ?_, run_change_ok⟩
  cases hop : op fs with
  | ok changed =>
      cases (run_change_ok hop).symm.trans hrun
      rfl
  | error e => cases (run_change_error hop).symm.trans hrun

theorem run_makeDirectories (failure : FileError → ε) (path : String) (fs : FileSystem) :
    (Files.makeDirectories failure path).run fs
      = ((fs.makeDirectories path).1.mapError failure, (fs.makeDirectories path).2) := by
  rcases hmake : fs.makeDirectories path with ⟨e | _, changed⟩
  · simp only [Files.makeDirectories, ExceptT.run_mk, hmake]
    rfl
  · simp only [Files.makeDirectories, ExceptT.run_mk, hmake]
    rfl

theorem run_makeDirectories_iff {failure : FileError → ε} {path : String}
    {fs after : FileSystem} :
    (Files.makeDirectories failure path).run fs = (.ok (), after)
      ↔ fs.makeDirectories path = (.ok (), after) := by
  rw [run_makeDirectories]
  rcases fs.makeDirectories path with ⟨e | _, changed⟩
  · constructor
    · intro hrun
      cases hrun
    · intro hmake
      cases hmake
  · constructor
    · intro hrun
      cases hrun
      rfl
    · intro hmake
      cases hmake
      rfl

variable {P : FileSystem → Prop}

theorem keeps_pure : Keeps P (pure () : Effect ε Unit) := fun _ h => h

theorem Keeps.followedBy {first second : Effect ε Unit} (h : Keeps P first)
    (h' : Keeps P second) : Keeps P (do first; second) := by
  intro fs hfs
  have hmid := h fs hfs
  rw [run_then]
  split
  · next after hfirst =>
      rw [hfirst] at hmid
      exact h' after hmid
  · next e after hfirst =>
      rw [hfirst] at hmid
      exact hmid

theorem keeps_forM {α : Type} {program : α → Effect ε Unit} (items : List α)
    (h : ∀ item ∈ items, Keeps P (program item)) : Keeps P (items.forM program) := by
  induction items with
  | nil => exact keeps_pure
  | cons item rest ih =>
      obtain ⟨hfirst, hrest⟩ := List.forall_mem_cons.1 h
      exact hfirst.followedBy (ih hrest)

theorem keeps_change {failure : FileError → ε} {op : FileSystem → Except FileError FileSystem}
    (h : ∀ fs after, P fs → op fs = .ok after → P after) : Keeps P (Files.change failure op) := by
  intro fs hfs
  cases hop : op fs with
  | ok after =>
      rw [run_change_ok hop]
      exact h fs after hfs hop
  | error e =>
      rw [run_change_error hop]
      exact hfs

theorem keeps_makeDirectories {failure : FileError → ε} {path : String}
    (h : ∀ fs, P fs → P (fs.makeDirectories path).2) :
    Keeps P (Files.makeDirectories failure path) := by
  intro fs hfs
  rw [run_makeDirectories]
  exact h fs hfs

end Keeps

/-! ## Below the staging directory -/

/-- Whether a path leads to a directory that holds directories alone, named by some ids, with no
link in them. -/
structure Staged (directory : String) (place : Place) (left : Nat) (ids : String → Prop)
    (fs : FileSystem) : Prop where
  reached : At fs directory place left
  holds : ∃ entries, lookUp fs.root place = some (.directory entries)
    ∧ (Node.directory entries).LinkFree ∧ (∀ entry ∈ entries, entry.2.isDirectory = true)
    ∧ ∀ id, id ∈ entries.map Prod.fst ↔ ids id

theorem isDirectory_updateAt (change : Keyed Node → Keyed Node) (names : List String)
    (node : Node) :
    (node.updateAt change names).isDirectory = node.isDirectory := by
  cases node <;> cases names <;> rfl

namespace Staged

variable {directory : String} {place : Place} {left : Nat} {ids : String → Prop} {fs : FileSystem}

/-- A change in the directory of a page. -/
theorem put (h : Staged directory place left ids fs) {id name : String} {rest : List String}
    {inside : List (String × Node)} {new : Node}
    (hinside : lookUp fs.root ((id :: rest).reverse ++ place) = some (.directory inside))
    (hold : ∀ old, Keyed.find? name inside = some old →
      (∃ content, old = .file content) ∧ ∃ content, new = .file content) (hnew : new.LinkFree) :
    Staged directory place left ids (fs.put ((id :: rest).reverse ++ place) name new) := by
  obtain ⟨entries, hentries, hfree, hdirectories, hids⟩ := h.holds
  refine ⟨h.reached.extend (Files.extends_put hinside name new hold) rfl, ?_⟩
  have hafter : lookUp (fs.put ((id :: rest).reverse ++ place) name new).root place
      = some ((Node.directory entries).updateAt (Keyed.set name new) (id :: rest)) := by
    rw [lookUp] at hentries
    rw [lookUp, FileSystem.put, List.reverse_append, List.reverse_reverse,
      Node.at?_updateAt_append, hentries, Option.map_some]
  have hlinkFree : ((Node.directory entries).updateAt (Keyed.set name new) (id :: rest)).LinkFree :=
    hfree.updateAt (fun _ h => h.set hnew) _
  refine ⟨_, hafter, hlinkFree, fun entry hentry => ?_, fun other => ?_⟩
  · obtain ⟨⟨n, inner⟩, hmem, rfl⟩ := List.mem_map.1 hentry
    dsimp only
    split
    · rw [isDirectory_updateAt]
      exact hdirectories _ hmem
    · exact hdirectories _ hmem
  · rw [List.map_map]
    exact hids other

/-- Where a path with names behind the staging directory leads. -/
theorem walk_of_find (h : Staged directory place left ids fs) {path : String} {names : List String}
    {follow : Bool} {found : Files.Found} (hbehind : Behind directory names path)
    (hnames : names ≠ []) (hfind : fs.find path follow = .ok found) :
    ∃ entries, lookUp fs.root place = some (.directory entries)
      ∧ (Node.directory entries).LinkFree
      ∧ Files.walk fs.root follow left place (.directory entries) (names.map .into)
        = .ok found := by
  obtain ⟨entries, hentries, hfree, -⟩ := h.holds
  refine ⟨entries, hentries, hfree, ?_⟩
  have husable : Files.Usable path := Files.usable_of_walkFrom hfind
  rw [FileSystem.find, hbehind.steps, hbehind.plain,
    Files.walkFrom_append husable (hbehind.start fs ▸ h.reached.leads) hentries
      (by simpa using hnames)] at hfind
  exact hfind

/-- A file is written in the directory of a page, or nothing is. -/
theorem write (h : Staged directory place left ids fs) {path id : String} {names : List String}
    (hbehind : Behind directory (id :: names) path) (hnames : names ≠ []) {content : ByteArray}
    {after : FileSystem} (hwrite : fs.write path content = .ok after) :
    Staged directory place left ids after := by
  -- the file is put under the last name, which is free or a file's
  have hput : ∃ front name entries inside, id :: names = front ++ [name]
      ∧ lookUp fs.root place = some (.directory entries)
      ∧ Node.at? front (.directory entries) = some (.directory inside)
      ∧ (∀ old, Keyed.find? name inside = some old → ∃ bytes, old = .file bytes)
      ∧ after = fs.put (front.reverse ++ place) name (.file content) := by
    unfold FileSystem.write at hwrite
    split at hwrite
    · next last name hfind =>
        cases hwrite
        obtain ⟨entries, hentries, hfree, hwalk⟩ :=
          h.walk_of_find hbehind (List.cons_ne_nil _ _) hfind
        rcases Files.walk_linkFree _ hfree hwalk with
          ⟨_, hnode, -⟩ | ⟨front, n, inside, hsplit, hvacant, hat, hnone⟩
        · cases hnode
        · cases hvacant
          refine ⟨front, name, entries, inside, hsplit, hentries, hat, fun old hold => ?_, rfl⟩
          rw [hnone] at hold
          cases hold
    · next name last bytes hfind =>
        cases hwrite
        obtain ⟨entries, hentries, hfree, hwalk⟩ :=
          h.walk_of_find hbehind (List.cons_ne_nil _ _) hfind
        rcases Files.walk_linkFree _ hfree hwalk with
          ⟨inner, hnode, hat⟩ | ⟨_, _, _, _, hvacant, -⟩
        · obtain ⟨front, n, hsplit⟩ := (List.eq_nil_or_concat' (id :: names)).resolve_left
            (List.cons_ne_nil _ _)
          rw [hsplit] at hnode hat
          obtain ⟨inside, hfront, hfound⟩ := Files.Node.at?_concat hat
          simp only [List.reverse_append, List.reverse_singleton, List.cons_append,
            Files.Found.node.injEq, List.cons.injEq] at hnode
          obtain ⟨⟨rfl, rfl⟩, rfl⟩ := hnode
          refine ⟨front, name, entries, inside, hsplit, hentries, hfront, fun old hold => ?_, rfl⟩
          rw [hfound] at hold
          cases hold
          exact ⟨bytes, rfl⟩
        · cases hvacant
    · cases hwrite
    · cases hwrite
  obtain ⟨front, name, entries, inside, hsplit, hentries, hat, hold, rfl⟩ := hput
  cases front with
  | nil => exact absurd (List.cons.inj hsplit).2 hnames
  | cons first rest =>
      obtain rfl : id = first := (List.cons.inj hsplit).1
      refine h.put ?_ (fun old hfound => ⟨hold old hfound, content, rfl⟩) (.file content)
      rw [Files.lookUp_append, hentries, Option.bind_some, hat]

/-- A copy is written once empty and once whole. -/
theorem copy (h : Staged directory place left ids fs) {source path id : String}
    {names : List String} (hbehind : Behind directory (id :: names) path) (hnames : names ≠ [])
    {after : FileSystem} (hcopy : fs.copy source path = .ok after) :
    Staged directory place left ids after := by
  obtain ⟨emptied, content, hemptied, -, hwritten⟩ := Files.copy_eq_ok hcopy
  exact (h.write hbehind hnames hemptied).write hbehind hnames hwritten

/-- The directory of a page is created or there already. -/
theorem makePage (h : Staged directory place left ids fs) {id : String} (hid : Allowed id) :
    ∃ after, fs.makeDirectories (join directory id) = (.ok (), after)
      ∧ Staged directory place left (fun other => ids other ∨ other = id) after := by
  obtain ⟨entries, hentries, hfree, hdirectories, hids⟩ := h.holds
  cases hfind : Keyed.find? id entries with
  | none =>
      refine ⟨_, h.reached.makeDirectories_free hentries hid hfind, ?_, ?_⟩
      · exact h.reached.extend (Files.extends_put_free hentries _ _ hfind) rfl
      · refine ⟨_, Files.lookUp_put_directory hentries id _, hfree.set .empty,
          fun entry hentry => ?_, fun other => ?_⟩
        · rcases Keyed.mem_set hentry with rfl | hold
          · rfl
          · exact hdirectories entry hold
        · rw [← Keyed.isSome_find?, Keyed.isSome_find?_set, Keyed.isSome_find?, hids]
  | some inner =>
      obtain ⟨inside, rfl⟩ :=
        Files.Node.isDirectory_iff.1 (hdirectories _ (Keyed.mem_of_find? hfind))
      refine ⟨fs, h.reached.makeDirectories_there hentries hid hfind, h.reached,
        entries, hentries, hfree, hdirectories, fun other => ?_⟩
      have hknown : ids id := (hids id).1 (Keyed.isSome_find?.1 (by rw [hfind]; rfl))
      rw [hids]
      refine ⟨Or.inl, fun hother => hother.elim (fun hother => hother) ?_⟩
      rintro rfl
      exact hknown

/-- A directory in the directory of a page is created, or nothing is. -/
theorem makeInside (h : Staged directory place left ids fs) {id name : String} (hid : Allowed id)
    (hknown : ids id) (hname : Allowed name) :
    Staged directory place left ids (fs.makeDirectories (join (join directory id) name)).2 := by
  obtain ⟨entries, hentries, hfree, hdirectories, hids⟩ := h.holds
  obtain ⟨inner, hfind⟩ := Option.isSome_iff_exists.1 (Keyed.isSome_find?.2 ((hids id).2 hknown))
  obtain ⟨inside, rfl⟩ :=
    Files.Node.isDirectory_iff.1 (hdirectories _ (Keyed.mem_of_find? hfind))
  have hreached := h.reached.join hentries hid hfind (by simp)
  have hinside : lookUp fs.root (id :: place) = some (.directory inside) := by
    rw [Files.lookUp_cons hentries, hfind]
  cases hlast : Keyed.find? name inside with
  | none =>
      rw [hreached.makeDirectories_free hinside hname hlast]
      have hold : ∀ old, Keyed.find? name inside = some old →
          (∃ content, old = .file content) ∧ ∃ content, Node.directory [] = .file content := by
        intro old hold
        rw [hlast] at hold
        cases hold
      have hthere : lookUp fs.root ([id].reverse ++ place) = some (.directory inside) := hinside
      exact h.put hthere hold .empty
  | some last =>
      have hplain := ((hfree.find? hfind).find? hlast).not_link
      rw [hreached.makeDirectories_taken hinside hname hlast hplain]
      exact h

end Staged

/-! ## Staging a page -/

section Stage

variable {directory id : String} {place : Place} {left : Nat} {ids : String → Prop}

theorem keeps_writeFile {path : String} {names : List String}
    (hbehind : Behind directory (id :: names) path) (hnames : names ≠ []) (content : String) :
    Keeps (Staged directory place left ids) (writeFile path content) :=
  keeps_change fun _ _ h hwrite => h.write hbehind hnames hwrite

theorem keeps_copyInto {around : String} {names : List String}
    (hbehind : Behind directory (id :: names) around) (path : String) :
    Keeps (Staged directory place left ids) (copyInto around path) := by
  unfold copyInto
  split
  · exact keeps_pure
  · next name hname =>
      exact keeps_change fun _ _ h hcopy =>
        h.copy (hbehind.join (Files.properName_of_fileName hname)) (by simp) hcopy

theorem keeps_copyAll (hdirectory : directory ≠ "") (hid : Allowed id) (hknown : ids id)
    (paths : List String) :
    Keeps (Staged directory place left ids)
      (copyAll (join (join directory id) "attachments") paths) := by
  have hattachments : Allowed "attachments" := by decide
  have hbehind : Behind directory [id, "attachments"] (join (join directory id) "attachments") :=
    (Files.behind_join hdirectory hid.proper).join hattachments.proper
  unfold copyAll
  split
  · exact keeps_pure
  · exact (keeps_makeDirectories fun fs h => h.makeInside hid hknown hattachments).followedBy
      (keeps_forM _ fun path _ => keeps_copyInto hbehind path)

theorem keeps_pageFile (hdirectory : directory ≠ "") (hid : Allowed id) {name : String}
    (hname : ProperName name) (content : String) :
    Keeps (Staged directory place left ids)
      (writeFile (join (join directory id) name) content) :=
  keeps_writeFile ((Files.behind_join hdirectory hid.proper).join hname) (List.cons_ne_nil _ _)
    content

/-- Staging a page goes on once the directory of the page is there. -/
theorem run_stagePage {fs made : FileSystem} {page : String}
    (hmake : fs.makeDirectories page = (.ok (), made)) (draft : Draft) :
    (stagePage page draft).run fs
      = (do
          writeFile (join page "page.xml") draft.body
          writeFile (join page "page.json") (pageDescription draft)
          copyAll (join page "attachments") draft.attachments : Effect PublishError Unit).run
        made := by
  have hrun : (Files.makeDirectories (.io page) page : Effect PublishError Unit).run fs
      = (.ok (), made) := run_makeDirectories_iff.2 hmake
  unfold stagePage
  rw [run_then, hrun]

/-- A page without attachments is staged in an empty directory. -/
theorem stagePage_empty {before fs : FileSystem} {page : String} (hat : At fs page place left)
    (hempty : lookUp fs.root place = some (.directory []))
    (hmake : before.makeDirectories page = (.ok (), fs)) {draft : Draft}
    (hnone : draft.attachments = []) :
    (stagePage page draft).run before = (.ok (),
      (fs.put place "page.xml" (.file draft.body.toUTF8)).put place "page.json"
        (.file (pageDescription draft).toUTF8)) := by
  have hbody : Allowed "page.xml" := by decide
  have hdescription : Allowed "page.json" := by decide
  have hfirst := hat.write_free hempty hbody rfl draft.body.toUTF8
  have hextends : Extends fs.root (fs.put place "page.xml" (.file draft.body.toUTF8)).root :=
    Files.extends_put hempty _ _ nofun
  have hthere := Files.lookUp_put_directory hempty "page.xml" (.file draft.body.toUTF8)
  have hsecond := (hat.extend hextends rfl).write_free hthere hdescription (by
    rw [Keyed.find?_set_of_ne (by decide)]
    rfl) (pageDescription draft).toUTF8
  rw [run_stagePage hmake, run_then, writeFile, run_change_iff.2 hfirst]
  simp only
  rw [run_then, writeFile, run_change_iff.2 hsecond, hnone]
  rfl

/-- Once the directory of a page is there, staging the page touches nothing else. -/
theorem staged_stagePage {fs made : FileSystem}
    (hmake : fs.makeDirectories (join directory id) = (.ok (), made))
    (h : Staged directory place left ids made) (hid : Allowed id) (hknown : ids id)
    (draft : Draft) :
    Staged directory place left ids ((stagePage (join directory id) draft).run fs).2 := by
  have hdirectory : directory ≠ "" := h.reached.usable.ne_empty
  have hbody : ProperName "page.xml" := by decide
  have hdescription : ProperName "page.json" := by decide
  rw [run_stagePage hmake]
  exact (keeps_pageFile hdirectory hid hbody draft.body).followedBy
    ((keeps_pageFile hdirectory hid hdescription (pageDescription draft)).followedBy
      (keeps_copyAll hdirectory hid hknown draft.attachments)) made h

end Stage

/-! ## Staging a draft -/

/-- The id a draft is staged under. -/
def StagingArea.idFor (area : StagingArea) (draft : Draft) (used : Nat) : String :=
  draft.pageId.getD (area.newId used)

theorem publish_eq (area : StagingArea) (draft : Draft) (state : StagingState) :
    area.publish draft state
      = let id := area.idFor draft state.used
        let staged := (stagePage (join area.directory id) draft).run state.files
        (staged.1.map fun _ => id,
          ⟨staged.2, if draft.pageId = none then state.used + 1 else state.used⟩) := by
  unfold StagingArea.publish StagingArea.idFor
  cases hpage : draft.pageId with
  | none =>
      simp only [Option.getD_none, if_true]
      rcases (stagePage (join area.directory (area.newId state.used)) draft).run state.files with
        ⟨_ | _, files⟩
      · rfl
      · rfl
  | some id =>
      simp only [Option.getD_some, if_neg (Option.some_ne_none _)]
      rcases (stagePage (join area.directory id) draft).run state.files with ⟨_ | _, files⟩
      · rfl
      · rfl

/-- What a draft comes to that was staged. -/
theorem publish_eq_ok {area : StagingArea} {draft : Draft} {state after : StagingState}
    {id : String} (h : area.publish draft state = (.ok id, after)) :
    id = area.idFor draft state.used
      ∧ (stagePage (join area.directory id) draft).run state.files = (.ok (), after.files) := by
  rw [publish_eq] at h
  simp only at h
  generalize hstaged : (stagePage (join area.directory (area.idFor draft state.used)) draft).run
    state.files = staged at h
  obtain ⟨e | _, files⟩ := staged
  · cases h
  · cases h
    exact ⟨rfl, hstaged⟩

/-- The files that staging a draft leaves, and how many ids are given out then. -/
theorem publish_staged (area : StagingArea) (draft : Draft) (state : StagingState) :
    (area.publish draft state).2.files
        = ((stagePage (join area.directory (area.idFor draft state.used)) draft).run
          state.files).2
      ∧ (area.publish draft state).2.used
        = (if draft.pageId = none then state.used + 1 else state.used)
      ∧ ∀ id, (area.publish draft state).1 = .ok id → id = area.idFor draft state.used := by
  refine ⟨by rw [publish_eq], by rw [publish_eq], fun id hid => ?_⟩
  have hpublish : area.publish draft state = (.ok id, (area.publish draft state).2) := by
    rw [← hid]
  exact (publish_eq_ok hpublish).1

/-! ## What a staging directory holds -/

/-- Whether a directory that is missing can be created, and is empty then. -/
structure Creatable (fs : FileSystem) (directory : String) : Prop where
  plain : Files.EndsPlainly directory
  made : ∃ made, fs.makeDirectories directory = (.ok (), made)
    ∧ made.node directory = .ok (.directory [])

/-- What is in a staging directory: a directory for each id, and no link in any of them. A
directory that is still to be created holds none. -/
inductive Holds (fs : FileSystem) (directory : String) (ids : String → Prop) : Prop
  | there {entries : List (String × Node)} :
      fs.node directory = .ok (.directory entries) → (Node.directory entries).LinkFree →
      (∀ entry ∈ entries, entry.2.isDirectory = true) →
      (∀ id, id ∈ entries.map Prod.fst ↔ ids id) → Holds fs directory ids
  | missing :
      fs.node directory = .error .noSuchFile → Creatable fs directory → (∀ id, ¬ ids id) →
      Holds fs directory ids

namespace Holds

variable {fs : FileSystem} {directory : String} {place : Place} {left : Nat} {ids : String → Prop}

theorem of_staged (h : Staged directory place left ids fs) : Holds fs directory ids := by
  obtain ⟨entries, hentries, hfree, hdirectories, hids⟩ := h.holds
  exact .there (Files.node_eq_directory_iff.2 ⟨place, left, h.reached, hentries⟩) hfree
    hdirectories hids

theorem congr (h : Holds fs directory ids) {others : String → Prop}
    (hids : ∀ id, ids id ↔ others id) : Holds fs directory others := by
  cases h with
  | there hnode hfree hdirectories hnames =>
      exact .there hnode hfree hdirectories fun id => (hnames id).trans (hids id)
  | missing hnode hcreatable hnone =>
      exact .missing hnode hcreatable fun id => (hids id).not.1 (hnone id)

/-- The directory of a page can always be created. -/
theorem makePage (h : Holds fs directory ids) {id : String} (hid : Allowed id) :
    ∃ made place left, fs.makeDirectories (join directory id) = (.ok (), made)
      ∧ Staged directory place left (fun other => ids other ∨ other = id) made := by
  cases h with
  | there hnode hfree hdirectories hids =>
      obtain ⟨place, left, hat, hentries⟩ := Files.node_eq_directory_iff.1 hnode
      have hstaged : Staged directory place left ids fs :=
        ⟨hat, _, hentries, hfree, hdirectories, hids⟩
      obtain ⟨made, hmake, hmade⟩ := hstaged.makePage hid
      exact ⟨made, place, left, hmake, hmade⟩
  | missing hnode hcreatable hnone =>
      -- the staging directory is created first
      obtain ⟨between, hmake, hbetween⟩ := hcreatable.made
      obtain ⟨place, left, hat, hentries⟩ := Files.node_eq_directory_iff.1 hbetween
      have hempty : Staged directory place left ids between :=
        ⟨hat, [], hentries, .empty,
          fun _ hentry => absurd hentry List.not_mem_nil,
          fun id => ⟨fun hid => absurd hid List.not_mem_nil, fun hid => absurd hid (hnone id)⟩⟩
      obtain ⟨made, hpage, hmade⟩ := hempty.makePage hid
      refine ⟨made, place, left, ?_, hmade⟩
      have hone : between.makeDirectory (join directory id) = .ok made := by
        rw [hat.makeDirectories_free hentries hid rfl] at hpage
        rw [hat.makeDirectory_free hentries hid rfl]
        exact congrArg Except.ok (congrArg Prod.snd hpage)
      rw [FileSystem.makeDirectories] at hmake
      rw [FileSystem.makeDirectories, Files.ancestors_join hcreatable.plain hid.proper,
        FileSystem.makeMissing, Files.makeDirectory_missing hcreatable.plain hnode hid]
      simp only [hmake, hone]

/-- Staging a page makes its directory one of the staging directory's, whether or not it
succeeds. -/
theorem stagePage (h : Holds fs directory ids) {id : String} (hid : Allowed id) (draft : Draft) :
    Holds ((Sync.stagePage (join directory id) draft).run fs).2 directory
      (fun other => ids other ∨ other = id) := by
  obtain ⟨made, place, left, hmake, hmade⟩ := h.makePage hid
  exact .of_staged (staged_stagePage hmake hmade hid (Or.inr rfl) draft)

end Holds

end WikiPress.Sync
