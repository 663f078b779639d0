import WikiPress.Proofs.Files.Making
import WikiPress.Proofs.Ledger.StateFile
import WikiPress.Proofs.Sync.Idempotence

/-!
# WikiPress.Proofs.Ledger.Saving

Saving a ledger is all or nothing.

Design points:

* Saving is four calls: directories are created, a file is created beside the state file, its
  content is written, and it is renamed. `Attempt` has a constructor for each way this can go,
  also where a call fails for reasons that are not in the tree. `persist` is one of them
  (`attempt_persist`).
* Creating directories is where a failure leaves something behind: the directories made so far
  (`Grown`).
-/

namespace WikiPress.Files

/-! ## One file -/

/-- Whether a file took a place and nothing else changed. -/
structure Placed (before after : FileSystem) (place : Place) (content : ByteArray) : Prop where
  workingDirectory : after.workingDirectory = before.workingDirectory
  there : lookUp after.root place = some (.file content)
  elsewhere : ∀ other, other ≠ place →
    Option.Rel Alike (lookUp before.root other) (lookUp after.root other)

/-- A file that replaces what has its name, which is no directory. -/
theorem placed_put {fs : FileSystem} {directory : Place} {entries : List (String × Node)}
    (hentries : lookUp fs.root directory = some (.directory entries)) {name : String}
    (hold : ∀ inside, Keyed.find? name entries ≠ some (.directory inside)) (content : ByteArray) :
    Placed fs (fs.put directory name (.file content)) (name :: directory) content := by
  refine ⟨rfl, lookUp_put_below hentries name _ [], fun other hother => ?_⟩
  by_cases hplace : name :: directory <:+ other
  · obtain ⟨below, rfl⟩ := hplace
    rw [lookUp_below hentries, lookUp_put_below hentries]
    have hbelow : below.reverse ≠ [] := by
      rw [Ne, List.reverse_eq_nil_iff]
      rintro rfl
      exact hother rfl
    -- nothing is below what is no directory
    cases hnames : below.reverse with
    | nil => exact absurd hnames hbelow
    | cons first rest =>
        cases hfind : Keyed.find? name entries with
        | none => exact .none
        | some old =>
            cases old with
            | directory inside => exact absurd hfind (hold inside)
            | file _ => exact .none
            | link _ => exact .none
  · exact lookUp_put_elsewhere name _ hplace

/-- Takes a name out of a directory. -/
def FileSystem.drop (fs : FileSystem) (directory : Place) (name : String) : FileSystem :=
  { fs with root := fs.root.updateAt (Keyed.erase name) directory.reverse }

/-- A file that was put under a free name and is taken away again leaves nothing. -/
theorem Grown.put_drop {paths : List String} {fs made : FileSystem} (h : Grown paths fs made)
    {directory : Place} {entries : List (String × Node)}
    (hentries : lookUp made.root directory = some (.directory entries)) {name : String}
    (hfree : Keyed.find? name entries = none) (content : ByteArray) :
    Grown paths fs ((made.put directory name (.file content)).drop directory name) := by
  refine h.trans (.of_alike paths rfl fun place => ?_)
  have hself := lookUp_put_directory hentries name (.file content)
  by_cases hplace : name :: directory <:+ place
  · obtain ⟨below, rfl⟩ := hplace
    have hdropped : lookUp ((made.put directory name (.file content)).drop directory name).root
        directory = some (.directory (Keyed.erase name (Keyed.set name (.file content) entries))) :=
      Node.at?_updateAt_self _ hself
    rw [lookUp_below hentries, lookUp_below hdropped, hfree, Keyed.find?_erase_self]
    exact .none
  · have hput : Option.Rel Alike (lookUp made.root place)
        (lookUp (made.put directory name (.file content)).root place) :=
      lookUp_put_elsewhere name _ hplace
    have hdrop : Option.Rel Alike (lookUp (made.put directory name (.file content)).root place)
        (lookUp ((made.put directory name (.file content)).drop directory name).root place) := by
      refine Node.at?_updateAt_elsewhere
        (fun others other hne => Keyed.find?_erase_of_ne hne others)
        _ fun hprefix => hplace ?_
      rw [← List.reverse_prefix, List.reverse_cons]
      exact hprefix
    generalize lookUp made.root place = old at hput
    generalize lookUp (made.put directory name (.file content)).root place = between at hput hdrop
    cases hput with
    | none => exact hdrop
    | some halike =>
        obtain ⟨later, hlater, halike'⟩ := exists_alike rfl hdrop
        rw [hlater]
        exact .some (halike.trans halike')

end WikiPress.Files

namespace WikiPress.Ledger

open WikiPress.Files (FileSystem FileError Node Place Step Grown Makes Placed Reaches At Alike
  lookUp stepsOf leadingSteps ancestors)

/-! ## Attempts to save -/

/-- The ways saving a ledger can go. -/
inductive Attempt (ledger : Ledger) (fs : FileSystem) : Except SaveError Unit → FileSystem → Prop
  /-- Directories are missing still, or no file can be created in the last one, or the file
  cannot be renamed and is taken away. -/
  | gaveUp {made : FileSystem} (cause : FileError) :
      Makes (ancestors (directoryOf ledger.path)) fs made →
      Attempt ledger fs (.error ⟨ledger.path, cause⟩) made
  /-- The file was created, and something of it was written. It is taken away again. -/
  | tookAway {made : FileSystem} {directory : Place} {left : Nat}
      {entries : List (String × Node)} {name : String} (written : ByteArray) (cause : FileError) :
      Makes (ancestors (directoryOf ledger.path)) fs made →
      At made (directoryOf ledger.path) directory left →
      lookUp made.root directory = some (.directory entries) →
      Keyed.find? name entries = none →
      Attempt ledger fs (.error ⟨ledger.path, cause⟩)
        ((made.put directory name (.file written)).drop directory name)
  /-- The whole file is in the place of the state file. -/
  | replaced {made saved : FileSystem} :
      Makes (ancestors (directoryOf ledger.path)) fs made →
      made.replace ledger.path (encode ledger.entries).toUTF8 = .ok saved →
      Attempt ledger fs (.ok ()) saved

/-- What `persist` does is one of them. -/
theorem attempt_persist (ledger : Ledger) (fs : FileSystem) :
    Attempt ledger fs (ledger.persist fs).1 (ledger.persist fs).2 := by
  have hmakes : Makes (ancestors (directoryOf ledger.path)) fs
      (fs.makeDirectories (directoryOf ledger.path)).2 := Files.makes_makeMissing fs _
  unfold persist
  split
  · next cause made hmade =>
      rw [hmade] at hmakes
      exact .gaveUp cause hmakes
  · next made hmade =>
      rw [hmade] at hmakes
      split
      · next cause _ => exact .gaveUp cause hmakes
      · next saved hsaved => exact .replaced hmakes hsaved

/-! ## All or nothing -/

/-- What an attempt to save may leave of a file system. -/
def AllOrNothing (ledger : Ledger) (fs : FileSystem) :
    Except SaveError Unit → FileSystem → Prop
  | .error e, after =>
      -- directories are all that is new, and nothing is missing
      e.path = ledger.path ∧ Grown (ancestors (directoryOf ledger.path)) fs after
        ∧ ∀ path content, fs.read path = .ok content → after.read path = .ok content
  | .ok (), after =>
      ∃ made directory name,
        -- the directories around the state file are there
        Grown (ancestors (directoryOf ledger.path)) fs made
        ∧ stepsOf ledger.path = leadingSteps ledger.path ++ [.into name]
        ∧ (∃ entries, made.walkFrom ledger.path true (leadingSteps ledger.path)
          = .ok (.node directory (.directory entries)))
        -- the state file is in the last of them, and nothing else has changed
        ∧ Placed made after (name :: directory) (encode ledger.entries).toUTF8
        ∧ (after.read ledger.path = .ok (encode ledger.entries).toUTF8
          ↔ Reaches after ledger.path)

/-- **Saving is all or nothing**, whatever the files are like, wherever the state file is and
whatever the ledger holds. If it fails, also between two of its calls, every file, link and
directory is still there, and no file is new. If it succeeds, the name of the state file has the
whole document in the directory that its path leads to, and every other place is as it was once
the directories around the state file were there. The document is then read through the path,
unless the file took the place of a link that the path goes through. -/
theorem persist_all_or_nothing (ledger : Ledger) (fs : FileSystem) :
    AllOrNothing ledger fs (ledger.persist fs).1 (ledger.persist fs).2
      ∧ ∀ result after, Attempt ledger fs result after → AllOrNothing ledger fs result after := by
  have hattempts : ∀ result after, Attempt ledger fs result after →
      AllOrNothing ledger fs result after := by
    intro result after h
    cases h with
    | gaveUp cause hmakes => exact ⟨rfl, hmakes.grown, fun _ _ => hmakes.grown.read⟩
    | tookAway written cause hmakes _ hentries hfree =>
        have hgrown := hmakes.grown.put_drop hentries hfree written
        exact ⟨rfl, hgrown, fun _ _ => hgrown.read⟩
    | @replaced made saved hmakes hreplace =>
        have hread := Files.read_replace_iff hreplace
        obtain ⟨directory, entries, name, hsteps, hwalk, -, hold, rfl⟩ :=
          Files.replace_eq_ok hreplace
        have hentries := (Files.walkFrom_eq_ok_iff.1 hwalk).2.2
        exact ⟨made, directory, name, hmakes.grown, hsteps, ⟨entries, hwalk⟩,
          Files.placed_put hentries hold _, hread⟩
  have hattempt := attempt_persist ledger fs
  generalize (ledger.persist fs).1 = result at hattempt ⊢
  generalize (ledger.persist fs).2 = after at hattempt ⊢
  exact ⟨hattempts result after hattempt, hattempts⟩

/-- An empty ledger is saved in an empty directory, at once or at the second attempt. -/
theorem persist_all_or_nothing_bare :
    let ledger : Ledger := { path := "state.json" }
    let saved := bare.put [] "state.json" (.file (encode []).toUTF8)
    let interrupted := (bare.put [] ".tmp" (.file .empty)).drop [] ".tmp"
    ledger.persist bare = (.ok (), saved) ∧ AllOrNothing ledger bare (.ok ()) saved
      ∧ Attempt ledger bare (.error ⟨"state.json", .busy⟩) interrupted
      ∧ AllOrNothing ledger bare (.error ⟨"state.json", .busy⟩) interrupted := by
  intro ledger saved interrupted
  have hsaved : ledger.persist bare = (.ok (), saved) := persist_bare []
  have hdirectory : At bare (directoryOf ledger.path) [] Files.linkLimit := by
    have hparent : directoryOf ledger.path = "." := by decide
    have hsteps : Files.plainSteps "." = [.stay] := by decide
    rw [hparent]
    exact ⟨⟨by decide, by decide⟩, hsteps ▸ .stay ⟨[], rfl⟩ .arrived⟩
  have hattempt : Attempt ledger bare (.error ⟨"state.json", .busy⟩) interrupted :=
    .tookAway .empty .busy .refl hdirectory rfl rfl
  have hall := persist_all_or_nothing ledger bare
  rw [hsaved] at hall
  exact ⟨hsaved, hall.1, hattempt, hall.2 _ _ hattempt⟩

/-- In the place of a link that its path goes through, a ledger is saved and cannot be read. -/
theorem not_read_of_replaced_link :
    let ledger : Ledger := { path := "x/x" }
    (ledger.persist Sync.looped).1 = .ok ()
      ∧ (ledger.persist Sync.looped).2.read "x/x" ≠ .ok (encode ledger.entries).toUTF8 := by
  intro ledger
  have hsaved : ledger.persist Sync.looped = (.ok (), Sync.looped.put [] "x"
      (.file (encode ledger.entries).toUTF8)) :=
    Sync.persist_looped (by decide) ⟨by decide, by decide⟩ (by decide) (by decide) (by decide)
      (by decide)
  rw [hsaved]
  refine ⟨rfl, fun hread => ?_⟩
  have hload := load_of_read Keyed.ascending_nil hread
  rw [Sync.load_replaced_link] at hload
  cases hload

end WikiPress.Ledger
