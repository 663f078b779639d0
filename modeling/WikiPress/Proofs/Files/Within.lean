import WikiPress.Proofs.Files.Inward

/-!
# WikiPress.Proofs.Files.Within

What is created and written through paths that stay below a directory stays below it.

Design points:

* What changed is told place by place (`Within`). Below the directory everything may change, and
  nothing elsewhere does, but the directory itself and those that its path comes through may be
  new. The path is walked in the tree afterwards, since before it may have led nowhere.
* Nothing the path leads to has a link in it (`Enclosed`). That stays so: what is created has
  none. A directory that is missing is empty once it is there, unless its path goes up from one
  that was missing, and so into a directory that was there.
* Every change is a node put into a directory, below the one whose path is taken (`Enclosed.put`)
  or on the way to it (`Enclosed.put_on_way`).
-/

namespace WikiPress.Files

/-! ## Where a path leads and what it comes through -/

/-- Whether a path comes through a place, be it the one where it ends. -/
def FileSystem.ComesThrough (fs : FileSystem) (path : String) (place : Place) : Prop :=
  ∃ front left, front <+: plainSteps path
    ∧ Leads fs.root linkLimit (fs.startOf path) front place left

/-- Whether a path leads to a place. The empty path leads to the working directory. -/
def FileSystem.LeadsTo (fs : FileSystem) (path : String) (place : Place) : Prop :=
  ∃ left, Leads fs.root linkLimit (fs.startOf path) (plainSteps path) place left

section Later

variable {before after : FileSystem} {path : String} {place : Place}
  (hgrown : Extends before.root after.root)
  (hworking : after.workingDirectory = before.workingDirectory)

include hgrown hworking

theorem FileSystem.ComesThrough.later (h : before.ComesThrough path place) :
    after.ComesThrough path place := by
  obtain ⟨front, left, hfront, hleads⟩ := h
  refine ⟨front, left, hfront, ?_⟩
  rw [FileSystem.startOf, hworking]
  exact hleads.extend hgrown

theorem FileSystem.LeadsTo.later (h : before.LeadsTo path place) : after.LeadsTo path place := by
  obtain ⟨left, hleads⟩ := h
  refine ⟨left, ?_⟩
  rw [FileSystem.startOf, hworking]
  exact hleads.extend hgrown

end Later

theorem FileSystem.LeadsTo.place_eq {fs : FileSystem} {path : String} {place other : Place}
    (h : fs.LeadsTo path place) (h' : fs.LeadsTo path other) : place = other := by
  obtain ⟨_, hleads⟩ := h
  obtain ⟨_, hleads'⟩ := h'
  exact hleads.place_eq hleads'

/-- From an empty directory steps lead nowhere else, unless they go up. -/
theorem Leads.of_empty {root : Node} {links left : Nat} {place last : Place} {steps : List Step}
    (h : Leads root links place steps last left) (hempty : lookUp root place = some (.directory []))
    (hdown : .up ∉ steps) : last = place := by
  induction h with
  | arrived => rfl
  | stay _ _ ih => exact ih hempty fun hmem => hdown (List.mem_cons_of_mem _ hmem)
  | up => exact absurd List.mem_cons_self hdown
  | into _ _ hinner _ _ _ | link _ _ hinner _ _ =>
      rw [lookUp_cons hempty] at hinner
      cases hinner

/-! ## Changes below a directory -/

/-- Whether a tree only grew, with nothing changed but below the directory a path leads to. The
directory itself may be new, and so may the directories its path comes through. -/
structure Within (directory : String) (before after : FileSystem) : Prop where
  grown : Extends before.root after.root
  workingDirectory : after.workingDirectory = before.workingDirectory
  inside : ∀ place, Option.Rel Alike (lookUp before.root place) (lookUp after.root place)
    ∨ (∃ base, after.LeadsTo directory base ∧ base ≠ place ∧ base <:+ place)
    ∨ lookUp before.root place = none ∧ DirectoryAt after.root place
      ∧ after.ComesThrough directory place

namespace Within

variable {directory : String} {before between after : FileSystem}

theorem refl (directory : String) (fs : FileSystem) : Within directory fs fs where
  grown := .refl _
  workingDirectory := rfl
  inside _ := .inl (alike_of_eq rfl)

theorem trans (h : Within directory before between) (h' : Within directory between after) :
    Within directory before after where
  grown := h.grown.trans h'.grown
  workingDirectory := h'.workingDirectory.trans h.workingDirectory
  inside place := by
    rcases h.inside place with halike | ⟨base, hbase, hbelow⟩ | ⟨hnone, hthere, hway⟩
    · rcases h'.inside place with halike' | hbelow | ⟨hnone, hnew⟩
      · exact .inl (alike_trans halike halike')
      · exact .inr (.inl hbelow)
      · rw [hnone] at halike
        cases hbefore : lookUp before.root place with
        | none => exact .inr (.inr ⟨rfl, hnew⟩)
        | some node =>
            rw [hbefore] at halike
            cases halike
    · exact .inr (.inl ⟨base, hbase.later h'.grown h'.workingDirectory, hbelow⟩)
    · exact .inr (.inr ⟨hnone, hthere.extend h'.grown, hway.later h'.grown h'.workingDirectory⟩)

/-- Where the directory is there, nothing changes but below it. -/
theorem alike (h : Within directory before after) {base place : Place}
    (hbase : before.LeadsTo directory base) (hthere : DirectoryAt before.root base)
    (houtside : ¬ (base ≠ place ∧ base <:+ place)) :
    Option.Rel Alike (lookUp before.root place) (lookUp after.root place) := by
  rcases h.inside place with halike | ⟨base', hbase', hbelow⟩ | ⟨hnone, -, hway⟩
  · exact halike
  · obtain rfl := hbase'.place_eq (hbase.later h.grown h.workingDirectory)
    exact absurd hbelow houtside
  -- the path came through the same places before
  · obtain ⟨front, left, ⟨rest, hsteps⟩, hleads⟩ := hway
    obtain ⟨_, hbefore⟩ := hbase
    rw [← hsteps] at hbefore
    obtain ⟨through, mid, hfront, hrest⟩ := hbefore.split
    have hlater := hfront.extend h.grown
    rw [FileSystem.startOf, ← h.workingDirectory] at hlater
    obtain rfl := hlater.place_eq hleads
    obtain ⟨entries, hentries⟩ := hrest.directoryAt hthere
    rw [hnone] at hentries
    cases hentries

end Within

/-! ## Directories that are closed to the outside -/

/-- Whether there is no link in what a path leads to. Unless there is a directory, the path goes
nowhere up. -/
structure Enclosed (fs : FileSystem) (directory : String) : Prop where
  linkFree : ∀ place node, fs.LeadsTo directory place → lookUp fs.root place = some node →
    node.LinkFree
  there_or_down : (∃ place, fs.LeadsTo directory place ∧ DirectoryAt fs.root place)
    ∨ .up ∉ plainSteps directory

namespace Enclosed

variable {fs : FileSystem} {directory name : String} {base place : Place}
  {entries : List (String × Node)}

theorem there_or_down_later (h : Enclosed fs directory) {after : FileSystem}
    (hgrown : Extends fs.root after.root)
    (hworking : after.workingDirectory = fs.workingDirectory) :
    (∃ place, after.LeadsTo directory place ∧ DirectoryAt after.root place)
      ∨ .up ∉ plainSteps directory :=
  h.there_or_down.imp_left fun ⟨place, hplace, hthere⟩ =>
    ⟨place, hplace.later hgrown hworking, hthere.extend hgrown⟩

/-- A node is put below the directory, under a name that was free or a file's. -/
theorem put (h : Enclosed fs directory) (hbase : fs.LeadsTo directory base)
    (hthere : DirectoryAt fs.root base) (hbelow : base <:+ place)
    (hentries : lookUp fs.root place = some (.directory entries)) {new : Node}
    (hold : ∀ old, Keyed.find? name entries = some old →
      (∃ content, old = .file content) ∧ ∃ content, new = .file content) (hnew : new.LinkFree) :
    Enclosed (fs.put place name new) directory ∧ Within directory fs (fs.put place name new) := by
  have hgrown : Extends fs.root (fs.put place name new).root := extends_put hentries name new hold
  refine ⟨⟨fun place' node hplace' hnode => ?_, h.there_or_down_later hgrown rfl⟩,
    ⟨hgrown, rfl, fun place' => ?_⟩⟩
  · obtain rfl := hplace'.place_eq (hbase.later hgrown rfl)
    obtain ⟨top, htop⟩ := hthere
    obtain ⟨names, rfl⟩ := hbelow
    -- the directory is what it was, but for the node in it
    have hafter : lookUp (fs.put (names ++ place') name new).root place'
        = some ((Node.directory top).updateAt (Keyed.set name new) names.reverse) := by
      rw [lookUp] at htop
      rw [lookUp, FileSystem.put, List.reverse_append, Node.at?_updateAt_append, htop,
        Option.map_some]
    rw [hafter] at hnode
    cases hnode
    exact (h.linkFree place' _ hbase htop).updateAt (fun _ hbefore => hbefore.set hnew) _
  · by_cases hplace' : name :: place <:+ place'
    · have hinside := hbelow.trans ((List.suffix_cons name place).trans hplace')
      refine .inr (.inl ⟨base, hbase.later hgrown rfl, ?_, hinside⟩)
      rintro rfl
      have hlength := (hplace'.trans hbelow).length_le
      rw [List.length_cons] at hlength
      omega
    · exact .inl (lookUp_put_elsewhere name new hplace')

/-- A directory is created that the path of the directory comes through then. -/
theorem put_on_way (h : Enclosed fs directory)
    (hentries : lookUp fs.root place = some (.directory entries))
    (hfree : Keyed.find? name entries = none)
    (hway : (fs.put place name (.directory [])).ComesThrough directory (name :: place)) :
    Enclosed (fs.put place name (.directory [])) directory
      ∧ Within directory fs (fs.put place name (.directory [])) := by
  have hgrown : Extends fs.root (fs.put place name (.directory [])).root :=
    extends_put_free hentries name _ hfree
  have hself : lookUp (fs.put place name (.directory [])).root (name :: place)
      = some (.directory []) := lookUp_put_below hentries name _ []
  refine ⟨⟨fun last node hlast hnode => ?_, h.there_or_down_later hgrown rfl⟩,
    ⟨hgrown, rfl, fun place' => ?_⟩⟩
  · obtain ⟨front, _, ⟨rest, hsteps⟩, hfront⟩ := hway
    rcases h.there_or_down with ⟨base, ⟨_, hbase⟩, hthere⟩ | hdown
    -- the path came through before, but the name was free then
    · rw [← hsteps] at hbase
      obtain ⟨through, _, hfirst, hrest⟩ := hbase.split
      obtain rfl := (hfirst.extend hgrown).place_eq hfront
      obtain ⟨inside, hinside⟩ := hrest.directoryAt hthere
      rw [lookUp_cons hentries, hfree] at hinside
      cases hinside
    · obtain ⟨_, hleads⟩ := hlast
      rw [← hsteps] at hleads hdown
      obtain ⟨through, _, hfirst, hrest⟩ := hleads.split
      obtain rfl := hfirst.place_eq hfront
      obtain rfl := hrest.of_empty hself fun hmem => hdown (List.mem_append_right _ hmem)
      obtain rfl := Option.some.inj (hself.symm.trans hnode)
      exact .empty
  · by_cases hplace' : name :: place <:+ place'
    · obtain ⟨below, rfl⟩ := hplace'
      have hnone : lookUp fs.root (below ++ name :: place) = none := by
        rw [lookUp_below hentries, hfree, Option.bind_none]
      cases below with
      | nil => exact .inr (.inr ⟨hnone, ⟨[], hself⟩, hway⟩)
      | cons first below =>
          refine .inl (alike_of_eq ?_)
          rw [hnone, lookUp_put_below hentries, List.reverse_cons]
          cases below.reverse <;> rfl
    · exact .inl (lookUp_put_elsewhere name _ hplace')

end Enclosed

/-- Whether a directory is closed to the outside and nothing changed but below it. -/
structure Contained (directory : String) (start fs : FileSystem) : Prop where
  enclosed : Enclosed fs directory
  within : Within directory start fs

namespace Contained

variable {directory path name source : String} {start fs after : FileSystem}

theorem refl (h : Enclosed start directory) : Contained directory start start :=
  ⟨h, .refl directory start⟩

theorem step (h : Contained directory start fs)
    (hafter : Enclosed after directory ∧ Within directory fs after) :
    Contained directory start after :=
  ⟨hafter.1, h.within.trans hafter.2⟩

/-- What a walk along a path below the directory comes to is in a directory below it. -/
theorem exists_base {inner : List Step} {follow : Bool} {found : Found} {place : Place}
    {entries : List (String × Node)} (h : Contained directory start fs)
    (hstart : fs.startOf path = fs.startOf directory) (hinner : inner ≠ [])
    (hbelow : staysBelow 0 inner = true)
    (hwalk : fs.walkFrom path follow (plainSteps directory ++ inner) = .ok found)
    (hfound : found.place = name :: place)
    (hentries : lookUp fs.root place = some (.directory entries))
    (hold : ∀ old, Keyed.find? name entries = some old → ∃ content, old = .file content) :
    ∃ base, fs.LeadsTo directory base ∧ DirectoryAt fs.root base ∧ base <:+ place := by
  obtain ⟨base, mid, top, hleads, htop, hrest⟩ := walkFrom_of_append hinner hwalk
  rw [hstart] at hleads
  have hfree := h.enclosed.linkFree base _ ⟨mid, hleads⟩ htop
  have hnode : lookUp fs.root ([] ++ base) = some (.directory top) := htop
  have hsuffix : base <:+ found.place := walk_inward htop hfree hnode hbelow hrest
  rw [hfound] at hsuffix
  refine ⟨base, ⟨mid, hleads⟩, ⟨top, htop⟩, (List.suffix_cons_iff.1 hsuffix).resolve_left ?_⟩
  -- the directory itself is no file, nor free
  rintro rfl
  rw [lookUp_cons hentries] at htop
  obtain ⟨content, hfile⟩ := hold _ htop
  cases hfile

/-- A directory around a path that stays below the directory is created. -/
theorem makeDirectory (h : Contained directory start fs) {outer : String}
    (hbelow : Below directory path) (houter : outer ∈ ancestors path)
    (hmake : fs.makeDirectory outer = .ok after) : Contained directory start after := by
  obtain ⟨place, name, entries, hwalk, hentries, hfree, rfl, left, hat⟩ :=
    vacant_of_makeDirectory hmake
  -- on the way to the directory, it is where the first steps lead then
  have honWay : (∀ fs : FileSystem, fs.startOf outer = fs.startOf directory) →
      plainSteps outer <+: plainSteps directory →
      Contained directory start (fs.put place name (.directory [])) := by
    intro hstart hprefix
    refine h.step (h.enclosed.put_on_way hentries hfree ⟨plainSteps outer, left, hprefix, ?_⟩)
    rw [← hstart]
    exact hat.leads
  rcases hbelow.of_mem_ancestors houter with ⟨hstart, inner, hplain, hinner⟩ | ⟨hstart, hprefix⟩
  · by_cases hnone : inner = []
    · subst hnone
      rw [List.append_nil] at hplain
      exact honWay hstart (hplain ▸ List.prefix_rfl)
    · have hold : ∀ old, Keyed.find? name entries = some old →
          (∃ content, old = .file content) ∧ ∃ content, Node.directory [] = .file content := by
        intro old hold
        rw [hfree] at hold
        cases hold
      rw [hplain] at hwalk
      obtain ⟨base, hbase, hthere, hplace⟩ :=
        h.exists_base (hstart fs) hnone hinner hwalk rfl hentries fun old hfound =>
          (hold old hfound).1
      exact h.step (h.enclosed.put hbase hthere hplace hentries hold .empty)
  · exact honWay hstart hprefix

theorem makeDirectories (h : Contained directory start fs) (hbelow : Below directory path) :
    Contained directory start (fs.makeDirectories path).2 :=
  makeDirectories_keeps (fun _ _ _ hbefore houter hmake =>
    hbefore.makeDirectory hbelow houter hmake) h

/-- A file is written under a name behind a path that stays below the directory. -/
theorem write (h : Contained directory start fs) (hbelow : Below directory path)
    (hname : ProperName name) {content : ByteArray}
    (hwrite : fs.write (join path name) content = .ok after) :
    Contained directory start after := by
  obtain ⟨place, last, entries, found, hfind, hfound, hentries, hold, rfl, -⟩ := write_eq_ok hwrite
  obtain ⟨inner, hsteps, hnonempty, hinner⟩ := hbelow.stepsOf_join hname
  rw [FileSystem.find, hsteps] at hfind
  obtain ⟨base, hbase, hthere, hplace⟩ :=
    h.exists_base ((hbelow.join hname).start fs) hnonempty hinner hfind hfound hentries hold
  exact h.step (h.enclosed.put hbase hthere hplace hentries
    (fun old hfile => ⟨hold old hfile, content, rfl⟩) (.file content))

/-- A copy is written twice. -/
theorem copy (h : Contained directory start fs) (hbelow : Below directory path)
    (hname : ProperName name) (hcopy : fs.copy source (join path name) = .ok after) :
    Contained directory start after := by
  obtain ⟨emptied, content, hemptied, -, hwritten⟩ := copy_eq_ok hcopy
  exact (h.write hbelow hname hemptied).write hbelow hname hwritten

end Contained

end WikiPress.Files
