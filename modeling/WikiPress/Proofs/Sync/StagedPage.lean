import WikiPress.Proofs.Files.Confined
import WikiPress.Proofs.Json.RoundTrip
import WikiPress.Proofs.Sync.Staging

/-!
# WikiPress.Proofs.Sync.StagedPage

What the directory of a page holds once a draft is staged there.

Design points:

* Staging writes over what the directory has and takes nothing away. The body and the
  description are the draft's; the attachments are put beside those of earlier drafts
  (`Restaged.beside`).
* Attachments are copied one after another, each under its own name, so of those with one name
  the last stays (`lastNamed`).
* A page is therefore exactly its draft if and only if no two attachments have one name and
  nothing is left from before (`stagedExactly_iff`).
-/

namespace WikiPress.Sync

open WikiPress.Files (FileSystem Effect Node Place Allowed Confined Houses Outside ProperName join
  fileName)

/-! ## Copying the attachments -/

/-- The last of some paths that end in a name. -/
def lastNamed (name : String) : List String → Option String
  | [] => none
  | path :: rest =>
      (lastNamed name rest).or (if fileName path = some name then some path else none)

theorem lastNamed_eq_none_iff {name : String} {paths : List String} :
    lastNamed name paths = none ↔ ∀ path ∈ paths, fileName path ≠ some name := by
  induction paths with
  | nil => simp [lastNamed]
  | cons path rest ih =>
      rw [lastNamed, List.forall_mem_cons, Option.or_eq_none_iff, ih, and_comm]
      simp

theorem mem_of_lastNamed {name path : String} {paths : List String}
    (h : lastNamed name paths = some path) : path ∈ paths ∧ fileName path = some name := by
  induction paths with
  | nil => cases h
  | cons first rest ih =>
      rcases Option.or_eq_some_iff.1 h with hlast | ⟨-, hfirst⟩
      · obtain ⟨hmem, hname⟩ := ih hlast
        exact ⟨List.mem_cons_of_mem _ hmem, hname⟩
      · split at hfirst
        · next hname =>
            cases hfirst
            exact ⟨List.mem_cons_self, hname⟩
        · cases hfirst

/-- What a directory has once files are copied into it. -/
structure Copied (place : Place) (paths : List String) (entries later : List (String × Node))
    (after : FileSystem) : Prop where
  /-- A name of none of them has what it had. -/
  others : ∀ name, lastNamed name paths = none →
    Keyed.find? name later = Keyed.find? name entries
  /-- A name of one of them was free, or a file's. -/
  free : ∀ name path, lastNamed name paths = some path → Allowed name
    ∧ ∀ old, Keyed.find? name entries = some old → ∃ content, old = .file content
  /-- It has what the last one with the name has, if that is outside. -/
  last : ∀ name path, lastNamed name paths = some path →
    ∃ content, Keyed.find? name later = some (.file content)
      ∧ (Outside place after path → after.read path = .ok content)

namespace Copied

variable {place : Place} {path own : String} {rest : List String}
  {entries middle later : List (String × Node)} {after : FileSystem} {content : ByteArray}

/-- A path without a name is passed over. -/
theorem skip (h : Copied place rest entries later after) (hname : fileName path = none) :
    Copied place (path :: rest) entries later after := by
  have hlast : ∀ name, lastNamed name (path :: rest) = lastNamed name rest := by
    simp [lastNamed, hname]
  constructor
  · simpa only [hlast] using h.others
  · simpa only [hlast] using h.free
  · simpa only [hlast] using h.last

/-- The name of a path is decided by it, unless a later one has the name, too. -/
theorem cons (h : Copied place rest middle later after) (hname : fileName path = some own)
    (hallowed : Allowed own)
    (hfree : ∀ old, Keyed.find? own entries = some old → ∃ content, old = .file content)
    (hown : Keyed.find? own middle = some (.file content))
    (hothers : ∀ other, other ≠ own → Keyed.find? other middle = Keyed.find? other entries)
    (hread : Outside place after path → after.read path = .ok content) :
    Copied place (path :: rest) entries later after where
  others name hnone := by
    obtain ⟨hrest, hfirst⟩ := Option.or_eq_none_iff.1 hnone
    rw [h.others name hrest, hothers name]
    rintro rfl
    rw [if_pos hname] at hfirst
    cases hfirst
  free name found hfound := by
    by_cases hsame : name = own
    · subst hsame
      exact ⟨hallowed, hfree⟩
    rcases Option.or_eq_some_iff.1 hfound with hlast | ⟨-, hfirst⟩
    · rw [← hothers name hsame]
      exact h.free name found hlast
    · rw [if_neg fun hother => hsame (Option.some.inj (hother.symm.trans hname))] at hfirst
      cases hfirst
  last name found hfound := by
    rcases Option.or_eq_some_iff.1 hfound with hlast | ⟨hrest, hfirst⟩
    · exact h.last name found hlast
    · split at hfirst
      · next hsame =>
          cases hfirst
          obtain rfl : own = name := Option.some.inj (hname.symm.trans hsame)
          exact ⟨content, (h.others own hrest).trans hown, hread⟩
      · cases hfirst

end Copied

theorem copied_copyInto {folder : String} {place : Place} {left : Nat} (paths : List String)
    {fs after : FileSystem} {entries : List (String × Node)}
    (h : Houses fs folder place left entries)
    (hrun : (paths.forM (copyInto folder)).run fs = (.ok (), after)) :
    ∃ later, Houses after folder place left later ∧ Confined place fs after
      ∧ Copied place paths entries later after := by
  induction paths generalizing fs entries with
  | nil =>
      cases hrun
      exact ⟨entries, h, .refl _ _, fun _ _ => rfl, nofun, nofun⟩
  | cons path rest ih =>
      obtain ⟨between, hfirst, hrest⟩ := run_then_ok hrun
      cases hname : fileName path with
      | none =>
          simp only [copyInto, hname] at hfirst
          cases hfirst
          obtain ⟨later, hhouses, hconfined, hcopied⟩ := ih h hrest
          exact ⟨later, hhouses, hconfined, hcopied.skip hname⟩
      | some own =>
          simp only [copyInto, hname] at hfirst
          obtain ⟨middle, content, hmiddle, hinside, hallowed, hfree, hown, hothers, hread⟩ :=
            h.copy (Files.properName_of_fileName hname) (run_change_iff.1 hfirst)
          obtain ⟨later, hhouses, hconfined, hcopied⟩ := ih hmiddle hrest
          have hbelow : place <:+ own :: place := List.suffix_cons own place
          refine ⟨later, hhouses, (hinside.widen hbelow).trans hconfined,
            hcopied.cons hname hallowed hfree hown hothers fun houtside => ?_⟩
          -- the copies to come leave the source as it is
          have hearlier := hconfined.outside_before houtside
          exact hconfined.read (hread (hearlier.below hbelow)) houtside

/-! ## The files of a page -/

/-- Whether a file with some content is in a directory, at the end of some names. -/
def FileBelow (fs : FileSystem) (directory : String) (names : List String)
    (content : ByteArray) : Prop :=
  ∃ node, fs.node directory = .ok node ∧ Node.at? names node = some (.file content)

/-- Whether a directory holds no file but those that have the names of some paths. -/
def HoldsOnly (fs : FileSystem) (directory : String) (paths : List String) : Prop :=
  ∀ names content, FileBelow fs directory names content →
    ∃ path ∈ paths, ∃ name, fileName path = some name ∧ names = [name]

/-- Whether a path does not lead into a directory. -/
def LiesOutside (fs : FileSystem) (directory path : String) : Prop :=
  ∀ place node, fs.find directory true = .ok (.node place node) → Outside place fs path

/-- The title, the page above and the identity of a draft. -/
def Draft.description (draft : Draft) : Json.Value :=
  .object [(some "title", .text (some draft.title)),
    (some "parentId", .text (some draft.parentId)), (some "identity", .text (some draft.identity))]

theorem parse_pageDescription (draft : Draft) :
    Json.parse (pageDescription draft).toUTF8 = some draft.description :=
  Json.parse_print (by simp [Json.Value.Numberless, Json.MembersNumberless])

/-! ## Staging a page again -/

/-- What the attachments of a draft come to in the directory of its page. -/
inductive Attached (page : String) (place : Place) (left : Nat) (paths : List String)
    (entries : List (String × Node)) (after : FileSystem) : Prop
  | unasked {later : List (String × Node)} :
      paths = [] → Houses after page place left later →
      Keyed.find? "attachments" later = Keyed.find? "attachments" entries →
      Attached page place left paths entries after
  | filled {inside later : List (String × Node)} :
      Keyed.find? "attachments" entries = some (.directory inside)
        ∨ Keyed.find? "attachments" entries = none ∧ inside = [] →
      Houses after (join page "attachments") ("attachments" :: place) left later →
      Copied ("attachments" :: place) paths inside later after →
      Attached page place left paths entries after

theorem allowed_attachments : Allowed "attachments" := by decide

namespace Attached

variable {made after : FileSystem} {page name path : String} {place : Place} {left : Nat}
  {paths : List String} {entries : List (String × Node)}

/-- The last attachment with a name is the one that is staged. -/
theorem read_last (h : Attached page place left paths entries after)
    (hlast : lastNamed name paths = some path) :
    ∃ content, after.read (join (join page "attachments") name) = .ok content
      ∧ (Outside ("attachments" :: place) after path → after.read path = .ok content) := by
  cases h with
  | unasked hnone =>
      subst hnone
      cases hlast
  | filled _ hhouses hcopied =>
      obtain ⟨hallowed, -⟩ := hcopied.free name path hlast
      obtain ⟨content, hfound, hread⟩ := hcopied.last name path hlast
      exact ⟨content, hhouses.read hallowed hfound, hread⟩

/-- Beside the attachments there is what there was. -/
theorem fileBelow_iff (h : Attached page place left paths entries after)
    (hmade : Houses made page place left entries) {names : List String} {content : ByteArray}
    (hnames : ∀ path ∈ paths, ∀ name, fileName path = some name → names ≠ [name]) :
    FileBelow after (join page "attachments") names content
      ↔ FileBelow made (join page "attachments") names content := by
  cases h with
  | unasked hnone hhouses hsame =>
      simp only [FileBelow, hhouses.node_iff allowed_attachments,
        hmade.node_iff allowed_attachments, hsame]
  | @filled inside later hbefore hhouses hcopied =>
      -- what a directory that was free had below it is what an empty one has
      have hmade : FileBelow made (join page "attachments") names content
          ↔ Node.at? names (.directory inside) = some (.file content) := by
        simp only [FileBelow, hmade.node_iff allowed_attachments]
        rcases hbefore with hthere | ⟨hfree, rfl⟩
        · simp [hthere]
        · cases names <;> simp [hfree, Node.at?]
      have hafter : FileBelow after (join page "attachments") names content
          ↔ Node.at? names (.directory later) = some (.file content) := by
        simp [FileBelow, hhouses.node]
      rw [hmade, hafter]
      cases names with
      | nil => simp [Node.at?]
      | cons name rest =>
          simp only [Node.at?]
          cases hlast : lastNamed name paths with
          | none => rw [hcopied.others name hlast]
          | some path =>
              -- nothing is below a file
              obtain ⟨hmem, hname⟩ := mem_of_lastNamed hlast
              have hrest : rest ≠ [] := by
                rintro rfl
                exact hnames path hmem name hname rfl
              obtain ⟨next, rest, rfl⟩ := List.exists_cons_of_ne_nil hrest
              obtain ⟨bytes, hfound, -⟩ := hcopied.last name path hlast
              obtain ⟨-, hfree⟩ := hcopied.free name path hlast
              rw [hfound]
              cases hold : Keyed.find? name inside with
              | none => simp [Node.at?]
              | some old =>
                  obtain ⟨earlier, rfl⟩ := hfree old hold
                  simp [Node.at?]

end Attached

/-- The directory of a page once the body and the description are written. -/
theorem exists_described {made written described : FileSystem} {page body description : String}
    {place : Place} {left : Nat} {entries : List (String × Node)}
    (h : Houses made page place left entries)
    (hbody : made.write (join page "page.xml") body.toUTF8 = .ok written)
    (hdescription : written.write (join page "page.json") description.toUTF8 = .ok described) :
    ∃ later, Houses described page place left later ∧ Confined place made described
      ∧ Keyed.find? "page.xml" later = some (.file body.toUTF8)
      ∧ Keyed.find? "page.json" later = some (.file description.toUTF8)
      ∧ Keyed.find? "attachments" later = Keyed.find? "attachments" entries := by
  obtain ⟨-, -, hwritten, hfirst⟩ := h.write (by decide) hbody
  obtain ⟨-, -, hdescribed, hsecond⟩ := hwritten.write (by decide) hdescription
  refine ⟨_, hdescribed,
    (hfirst.widen (List.suffix_cons _ _)).trans (hsecond.widen (List.suffix_cons _ _)),
    ?_, Keyed.find?_set_self _ _ _, ?_⟩
  · rw [Keyed.find?_set_of_ne (by decide), Keyed.find?_set_self]
  · rw [Keyed.find?_set_of_ne (by decide), Keyed.find?_set_of_ne (by decide)]

/-- Staging a page in a directory without links. -/
theorem exists_attached {fs made after : FileSystem} {page : String} {draft : Draft}
    (hpage : page ≠ "") (hmake : fs.makeDirectories page = (.ok (), made))
    (hlinks : ∀ node, made.node page = .ok node → node.LinkFree)
    (hrun : (stagePage page draft).run fs = (.ok (), after)) :
    ∃ place left entries, Houses made page place left entries ∧ Confined place made after
      ∧ after.read (join page "page.xml") = .ok draft.body.toUTF8
      ∧ after.read (join page "page.json") = .ok (pageDescription draft).toUTF8
      ∧ Attached page place left draft.attachments entries after := by
  obtain ⟨place, left, entries, hmade⟩ := Files.exists_houses hpage hmake hlinks
  rw [run_stagePage hmake] at hrun
  obtain ⟨between, hwrite, hrun⟩ := run_then_ok hrun
  obtain ⟨described, hdescribe, hcopies⟩ := run_then_ok hrun
  obtain ⟨inner, hdescribed, hwritten, hbody, hdescription, hsame⟩ :=
    exists_described hmade (run_change_iff.1 hwrite) (run_change_iff.1 hdescribe)
  have hxml : Allowed "page.xml" := by decide
  have hjson : Allowed "page.json" := by decide
  refine ⟨place, left, entries, hmade, ?_⟩
  cases hpaths : draft.attachments with
  | nil =>
      rw [hpaths] at hcopies
      cases hcopies
      exact ⟨hwritten, hdescribed.read hxml hbody, hdescribed.read hjson hdescription,
        .unasked rfl hdescribed hsame⟩
  | cons path rest =>
      rw [hpaths] at hcopies
      obtain ⟨opened, hopen, hcopies⟩ := run_then_ok hcopies
      obtain ⟨inside, hopened, hcreated, hbefore⟩ :=
        hdescribed.makeDirectories allowed_attachments (run_makeDirectories_iff.1 hopen)
      obtain ⟨later, hhouses, hcopied, hlater⟩ := copied_copyInto (path :: rest) hopened hcopies
      have hinside : Confined ("attachments" :: place) described after := hcreated.trans hcopied
      -- the files of the page itself are not in the directory of the attachments
      have hkept : ∀ {name : String} {content : ByteArray}, Allowed name → name ≠ "attachments" →
          Keyed.find? name inner = some (.file content) →
          after.read (join page name) = .ok content := by
        intro name content hname hne hfile
        refine hinside.read (hdescribed.read hname hfile)
          (hinside.outside (hdescribed.find hname hfile) fun hsuffix => hne ?_)
        exact (List.cons.inj (hsuffix.eq_of_length rfl)).1.symm
      exact ⟨hwritten.trans (hinside.widen (List.suffix_cons _ _)),
        hkept hxml (by decide) hbody, hkept hjson (by decide) hdescription,
        .filled (hsame ▸ hbefore) hhouses hlater⟩

/-- What staging a draft makes of the directory of its page, as it is once it was asked for. -/
structure Restaged (before made after : FileSystem) (page : String) (draft : Draft) : Prop where
  body : after.read (join page "page.xml") = .ok draft.body.toUTF8
  description : ∃ content, after.read (join page "page.json") = .ok content
    ∧ Json.parse content = some draft.description
  /-- Of the attachments with one name the last is staged. -/
  last : ∀ name path, lastNamed name draft.attachments = some path →
    ∃ content, after.read path = .ok content
      ∧ after.read (join (join page "attachments") name) = .ok content
  /-- The attachments themselves are as they were. -/
  sources : ∀ path ∈ draft.attachments, ∀ content,
    before.read path = .ok content → after.read path = .ok content
  /-- Beside them there is what there was. -/
  beside : ∀ names content,
    (∀ path ∈ draft.attachments, ∀ name, fileName path = some name → names ≠ [name]) →
    (FileBelow after (join page "attachments") names content
      ↔ FileBelow made (join page "attachments") names content)

/-- Whether the directory of a page holds a draft, with each of its attachments and no other
one. -/
structure StagedExactly (fs : FileSystem) (page : String) (draft : Draft) : Prop where
  body : fs.read (join page "page.xml") = .ok draft.body.toUTF8
  description : ∃ content, fs.read (join page "page.json") = .ok content
    ∧ Json.parse content = some draft.description
  copied : ∀ path ∈ draft.attachments, ∃ name content, fileName path = some name
    ∧ fs.read path = .ok content
    ∧ fs.read (join (join page "attachments") name) = .ok content
  /-- No attachment is written over another one. -/
  apart : ∀ path ∈ draft.attachments, ∀ other ∈ draft.attachments,
    fileName path = fileName other → path = other
  only : HoldsOnly fs (join page "attachments") draft.attachments

/-- Whether an attachments directory can come to hold a draft's attachments and no others: each
has a name of its own, and there is nothing else in the directory yet. -/
structure Separate (made : FileSystem) (page : String) (draft : Draft) : Prop where
  named : ∀ path ∈ draft.attachments, fileName path ≠ none
  apart : ∀ path ∈ draft.attachments, ∀ other ∈ draft.attachments,
    fileName path = fileName other → path = other
  only : HoldsOnly made (join page "attachments") draft.attachments

section Restaged

variable {before made after : FileSystem} {page : String} {draft : Draft}

theorem Restaged.holdsOnly_iff (h : Restaged before made after page draft) :
    HoldsOnly after (join page "attachments") draft.attachments
      ↔ HoldsOnly made (join page "attachments") draft.attachments := by
  refine forall_congr' fun names => forall_congr' fun content => ?_
  by_cases hnames : ∃ path ∈ draft.attachments, ∃ name, fileName path = some name ∧ names = [name]
  · exact ⟨fun _ _ => hnames, fun _ _ => hnames⟩
  · rw [h.beside names content]
    exact fun path hpath name hname hsame => hnames ⟨path, hpath, name, hname, hsame⟩

theorem Restaged.exactly_iff_separate (h : Restaged before made after page draft) :
    StagedExactly after page draft ↔ Separate made page draft := by
  constructor
  · intro hexact
    refine ⟨fun path hpath hnone => ?_, hexact.apart, h.holdsOnly_iff.1 hexact.only⟩
    obtain ⟨name, -, hname, -⟩ := hexact.copied path hpath
    rw [hname] at hnone
    cases hnone
  · intro hseparate
    refine ⟨h.body, h.description, fun path hpath => ?_, hseparate.apart,
      h.holdsOnly_iff.2 hseparate.only⟩
    obtain ⟨name, hname⟩ := Option.ne_none_iff_exists'.1 (hseparate.named path hpath)
    -- the last attachment with the name is the only one
    cases hlast : lastNamed name draft.attachments with
    | none => exact absurd hname (lastNamed_eq_none_iff.1 hlast path hpath)
    | some last =>
        obtain ⟨hmem, hlastName⟩ := mem_of_lastNamed hlast
        obtain rfl := hseparate.apart last hmem path hpath (hlastName.trans hname.symm)
        obtain ⟨content, hread, hstaged⟩ := h.last name last hlast
        exact ⟨name, content, hname, hread, hstaged⟩

end Restaged

/-- A draft that is staged is written over what the directory of its page had, and the directory
is exactly the draft if and only if no attachment shares its name with another one and no other
file was left there. -/
theorem stagedExactly_iff {area : StagingArea} {draft : Draft} {state after : StagingState}
    {id : String} (h : area.publish draft state = (.ok id, after))
    (hpage : join area.directory id ≠ "")
    (hlinks : ∀ node, (state.files.makeDirectories (join area.directory id)).2.node
      (join area.directory id) = .ok node → node.LinkFree)
    (houtside : ∀ path ∈ draft.attachments,
      LiesOutside after.files (join area.directory id) path) :
    Restaged state.files (state.files.makeDirectories (join area.directory id)).2 after.files
        (join area.directory id) draft
      ∧ (StagedExactly after.files (join area.directory id) draft
        ↔ Separate (state.files.makeDirectories (join area.directory id)).2
          (join area.directory id) draft) := by
  obtain ⟨-, hrun⟩ := publish_eq_ok h
  have hmake : state.files.makeDirectories (join area.directory id)
      = (.ok (), (state.files.makeDirectories (join area.directory id)).2) := by
    obtain ⟨made, hmake, -⟩ := run_then_ok hrun
    rw [run_makeDirectories_iff.1 hmake]
  generalize hmadeEq : (state.files.makeDirectories (join area.directory id)).2 = made at *
  obtain ⟨place, left, entries, hmade, hconfined, hbody, hdescription, hattached⟩ :=
    exists_attached hpage hmake hlinks hrun
  have helsewhere : ∀ path ∈ draft.attachments, Outside place after.files path := by
    intro path hpath
    obtain ⟨node, hfind⟩ := hconfined.find (hmade.reached.find hmade.there)
    exact houtside path hpath place node hfind
  have hcreated : Confined place state.files made :=
    hmadeEq ▸ (Files.makes_makeMissing state.files _).grown.confined place
  have hrestaged : Restaged state.files made after.files (join area.directory id) draft :=
    { body := hbody
      description := ⟨_, hdescription, parse_pageDescription draft⟩
      last := fun name path hlast => by
        obtain ⟨content, hstaged, hread⟩ := hattached.read_last hlast
        have hpath := helsewhere path (mem_of_lastNamed hlast).1
        exact ⟨content, hread (hpath.below (List.suffix_cons _ _)), hstaged⟩
      sources := fun path hpath content hread =>
        (hcreated.trans hconfined).read hread (helsewhere path hpath)
      beside := fun names content hnames => hattached.fileBelow_iff hmade hnames }
  exact ⟨hrestaged, hrestaged.exactly_iff_separate⟩

/-! ### A page whose draft lost an attachment -/

/-- A page that was staged with an attachment, and another file. -/
def storeroom : FileSystem :=
  { root := .directory [("new.png", .file .empty), ("out", .directory [("7", .directory
      [("attachments", .directory [("old.png", .file .empty)])])])]
    workingDirectory := [] }

/-- The page with the other file as its attachment. -/
def renewed : Draft where
  identity := "a.md"
  title := "a"
  parentId := ""
  pageId := some "7"
  body := ""
  attachments := ["/new.png"]

theorem find_new : storeroom.find "/new.png" true = .ok (.node ["new.png"] (.file .empty)) :=
  Files.walkFrom_eq_ok_iff.2 ⟨⟨by decide, by decide⟩,
    ⟨_, .into ⟨_, rfl⟩ (by decide) rfl (by simp) .arrived⟩, rfl⟩

theorem houses_storeroom : Houses storeroom "/out/7" ["7", "out"] Files.linkLimit
    [("attachments", .directory [("old.png", .file .empty)])] where
  reached := ⟨⟨by decide, by decide⟩,
    .into ⟨_, rfl⟩ (by decide) rfl (by simp) (.into ⟨_, rfl⟩ (by decide) rfl (by simp) .arrived)⟩
  there := rfl
  linkFree := by
    have hinside : (Node.directory [("old.png", .file .empty)]).LinkFree :=
      .directory (by simp [Node.LinkFree.file])
    exact .directory (by simp [hinside])

theorem makeDirectories_storeroom : storeroom.makeDirectories "/out/7" = (.ok (), storeroom) := by
  have hout : Files.At storeroom "/out" ["out"] Files.linkLimit :=
    ⟨⟨by decide, by decide⟩, .into ⟨_, rfl⟩ (by decide) rfl (by simp) .arrived⟩
  have hjoin : join "/out" "7" = "/out/7" := by decide +kernel
  rw [← hjoin]
  exact hout.makeDirectories_there rfl (by decide) rfl

theorem run_then_eq {ε : Type} {first second : Effect ε Unit} {fs between after : FileSystem}
    (h : first.run fs = (.ok (), between)) (h' : second.run between = (.ok (), after)) :
    (do first; second : Effect ε Unit).run fs = (.ok (), after) := by
  rw [run_then, h]
  exact h'

theorem exists_stagePage_renewed :
    ∃ after, Confined ["7", "out"] storeroom after
      ∧ (stagePage "/out/7" renewed).run storeroom = (.ok (), after) := by
  obtain ⟨written, hwritten⟩ := houses_storeroom.exists_write (show Allowed "page.xml" by decide)
    nofun renewed.body.toUTF8
  obtain ⟨-, -, hbetween, -⟩ := houses_storeroom.write (by decide) hwritten
  obtain ⟨described, hdescribed⟩ := hbetween.exists_write (show Allowed "page.json" by decide)
    nofun (pageDescription renewed).toUTF8
  obtain ⟨inner, hpage, hconfined, -, -, hsame⟩ :=
    exists_described houses_storeroom hwritten hdescribed
  have hopen := hpage.reached.makeDirectories_there hpage.there allowed_attachments hsame
  have hfolder := hpage.join allowed_attachments hsame
  obtain ⟨after, hcopy⟩ := hfolder.exists_copy (show Allowed "new.png" by decide) nofun
    (hconfined.find_file find_new (by decide)) (by decide)
  obtain ⟨_, _, _, hinside, _⟩ := hfolder.copy (by decide) hcopy
  have hname : fileName "/new.png" = some "new.png" := by decide +kernel
  refine ⟨after, hconfined.trans (hinside.widen (by decide)), ?_⟩
  rw [run_stagePage makeDirectories_storeroom]
  refine run_then_eq (run_change_iff.2 hwritten) (run_then_eq (run_change_iff.2 hdescribed)
    (run_then_eq (run_makeDirectories_iff.2 hopen) (run_then_eq ?_ rfl)))
  simp only [copyInto, hname]
  exact run_change_iff.2 hcopy

/-- The attachment of the earlier draft is still there. -/
theorem stagedExactly_iff_renewed :
    ∃ after, (StagingArea.mk "/out" fun _ => "8").publish renewed ⟨storeroom, 0⟩ = (.ok "7", after)
      ∧ ¬ StagedExactly after.files (join "/out" "7") renewed := by
  have hjoin : join "/out" "7" = "/out/7" := by decide +kernel
  obtain ⟨files, hconfined, hrun⟩ := exists_stagePage_renewed
  have hpublish : (StagingArea.mk "/out" fun _ => "8").publish renewed ⟨storeroom, 0⟩
      = (.ok "7", ⟨files, 0⟩) := by
    have hid : (StagingArea.mk "/out" fun _ => "8").idFor renewed 0 = "7" := rfl
    simp only [publish_eq, hid, hjoin, hrun, Except.map]
    rfl
  have hlinks : ∀ node, (storeroom.makeDirectories (join "/out" "7")).2.node (join "/out" "7")
      = .ok node → node.LinkFree := by
    intro node hnode
    rw [hjoin, makeDirectories_storeroom, houses_storeroom.node] at hnode
    cases hnode
    exact houses_storeroom.linkFree
  have houtside : ∀ path ∈ renewed.attachments, LiesOutside files (join "/out" "7") path := by
    intro path hpath place node hfind
    obtain rfl := List.mem_singleton.1 hpath
    obtain ⟨later, hlater⟩ := hconfined.find (houses_storeroom.reached.find houses_storeroom.there)
    rw [hjoin, hlater] at hfind
    cases hfind
    exact hconfined.outside find_new (by decide)
  refine ⟨⟨files, 0⟩, hpublish, fun hexact => ?_⟩
  have hseparate := (stagedExactly_iff hpublish (by rw [hjoin]; decide) hlinks houtside).2.1 hexact
  have hold : FileBelow storeroom (join "/out/7" "attachments") ["old.png"] .empty :=
    ⟨_, (houses_storeroom.node_iff allowed_attachments).2 rfl, rfl⟩
  have honly := hseparate.only
  simp only [hjoin, makeDirectories_storeroom] at honly
  obtain ⟨path, hpath, name, hname, hsame⟩ := honly _ _ hold
  obtain rfl := List.mem_singleton.1 hpath
  obtain rfl : name = "old.png" := (List.cons.inj hsame).1.symm
  revert hname
  decide +kernel

end WikiPress.Sync
