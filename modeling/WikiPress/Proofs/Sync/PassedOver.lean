import WikiPress.Proofs.Attachment
import WikiPress.Proofs.Files.Entries
import WikiPress.Proofs.Sync.Sources

/-!
# WikiPress.Proofs.Sync.PassedOver

Which of the things that a document can refer to in its own directory are published with its page.

The scan decides that by the names in the directory and in the attachments folder there. A path in
a document may lead to anything.

Design points:

* What a path leads to is told without following a link in its last step, since the scan takes a
  link for a file of its own.
* `Seat` is the directory of a page as the tree has it, also with what may not be listed in it, so
  paths are followed from there and not from the source directory. The file of the document itself
  shows which directory it is (`exists_seat`).
* What is found is published with the page if and only if the scan does not pass over it
  (`Seat.uploaded_iff`). The kinds of what it passes over are the cases of `PassedOver`.
-/

namespace WikiPress.Sync

open WikiPress.Attachment (Reference lexically_of_current ofSegments_eq_current_iff reference
  reference_eq_some)
open WikiPress.Files (Allowed At Behind DirectoryAt FileSystem Node Place ProperName Usable
  behind_join exists_parent join join_ne_empty lexically lookUp lookUp_cons plainSteps_join
  segmentsOf_of_into stepsOf stepsOf_join stepsOf_join_of_relative stepsOf_ne_nil usable_join
  usable_of_join)

/-! ## What is published and what is passed over -/

/-- Whether the files beside a document belong to a page: to the document itself if it is an
index, and else to the index above it. -/
def Document.OwnedBy (document owner : Document) : Prop :=
  if document.isIndex then owner = document
  else owner.isIndex = true ∧ owner.identity = document.parentIdentity

/-- Whether what a path leads to is published with a page. -/
def Uploaded (fs : FileSystem) (owner : Document) (path : String) : Prop :=
  ∃ file ∈ owner.attachments, fs.SameEntry path file

/-- Whether the files in the attachments folder of a directory can be published with its page.
`folder` is the path of the attachments folder, `here` the place of the directory. -/
structure FolderOpen (scanner : Scanner) (fs : FileSystem) (folder : String) (here : Place) :
    Prop where
  visible : isHidden scanner.attachmentsFolder = false
  listed : fs.mayList folder (scanner.attachmentsFolder :: here) = true
  allowed : Allowed scanner.attachmentsFolder

/-- What a scan does not publish with the page of a directory, although a path in a document
there leads to it. -/
inductive PassedOver (scanner : Scanner) (fs : FileSystem) (folder : String) (here : Place)
    (path : String) : Place → Node → Prop
  | directory {place : Place} {entries : Keyed Node} :
      PassedOver scanner fs folder here path place (.directory entries)
  | hidden {name : String} {around : Place} {node : Node} : isHidden name = true →
      PassedOver scanner fs folder here path (name :: around) node
  /-- This is another page, or the page itself. -/
  | markdown {name : String} {around : Place} {node : Node} : isMarkdown name = true →
      PassedOver scanner fs folder here path (name :: around) node
  /-- In an attachments folder that is hidden or may not be listed, or has a name that is good for
  no path. -/
  | closed {name : String} {node : Node} : ¬ FolderOpen scanner fs folder here →
      PassedOver scanner fs folder here path (name :: scanner.attachmentsFolder :: here) node
  /-- Somewhere else than the segments of the path say, by a link on the way. -/
  | astray {name : String} {around : Place} {node : Node} :
      around ≠ here → around ≠ scanner.attachmentsFolder :: here →
      name :: around ≠ lexically here path.toList →
      PassedOver scanner fs folder here path (name :: around) node

/-- What has a name that is published, where files are published. -/
theorem not_passedOver_of_reached {scanner : Scanner} {fs : FileSystem} {here around : Place}
    {folder path name : String} {found : Node} (hhidden : isHidden name = false)
    (hmarkdown : isMarkdown name = false) (hplain : found.isDirectory = false)
    (haround : around = here
      ∨ around = scanner.attachmentsFolder :: here ∧ FolderOpen scanner fs folder here) :
    ¬ PassedOver scanner fs folder here path (name :: around) found := by
  intro hpassed
  cases hpassed with
  | directory => cases hplain
  | hidden hname =>
      rw [hname] at hhidden
      cases hhidden
  | markdown hname =>
      rw [hname] at hmarkdown
      cases hmarkdown
  | closed hclosed =>
      rcases haround with hhere | ⟨-, hopen⟩
      · simpa using congrArg List.length hhere
      · exact hclosed hopen
  | astray hhere hfolder _ => exact haround.elim hhere fun hinside => hfolder hinside.1

/-! ## The directory of a document -/

/-- A page directory, with its page and what it holds. -/
structure Seat (scanner : Scanner) (fs : FileSystem) (owner : Document) (place here : Place)
    (entries : Keyed Node) : Prop where
  owner_eq : owner
    = scanner.indexAt place (fs.listedEntries (pathAt scanner.sourceDirectory place) here entries)
  wellNamed : (Node.directory entries).WellNamed
  reached : ∃ left, At fs (pathAt scanner.sourceDirectory place) here left
  contents : lookUp fs.root here = some (.directory entries)

section Seat

variable {scanner : Scanner} {fs : FileSystem} {owner document : Document} {place here last : Place}
  {entries contents inner : Keyed Node} {name path file source : String} {found : Node}

/-- A name is one entry's. -/
theorem VisibleFile.of_mem (h : VisibleFile entries name)
    (hentries : (Node.directory entries).WellNamed) (hmem : (name, found) ∈ entries) :
    isHidden name = false ∧ found.isDirectory = false := by
  obtain ⟨node, hmem', hhidden, hplain⟩ := h
  cases hentries with
  | directory hdistinct _ _ => exact ⟨hhidden, Keyed.eq_of_mem hdistinct hmem hmem' ▸ hplain⟩

namespace Seat

/-- A name in the directory. -/
theorem find_name_iff (h : Seat scanner fs owner place here entries) (hname : ProperName name) :
    fs.find (join (pathAt scanner.sourceDirectory place) name) false = .ok (.node last found)
      ↔ Allowed name ∧ last = name :: here ∧ (name, found) ∈ entries := by
  obtain ⟨left, hat⟩ := h.reached
  cases h.wellNamed with
  | directory hdistinct _ _ =>
      have hbehind : Behind (pathAt scanner.sourceDirectory place) ([] ++ [name])
          (join (pathAt scanner.sourceDirectory place) name) :=
        behind_join hat.usable.ne_empty hname
      rw [hat.find_behind_iff h.contents hbehind rfl, usable_join hat.usable hname,
        Keyed.find?_eq_some_iff_of_nodup hdistinct]
      constructor
      · rintro ⟨hnul, hshort, hlast⟩
        exact ⟨⟨hname, hnul, hshort name (by simp)⟩, hlast⟩
      · rintro ⟨hallowed, hlast⟩
        exact ⟨hallowed.nul, by simpa using hallowed.short, hlast⟩

/-- A name in the attachments folder there. -/
theorem find_attached_iff (h : Seat scanner fs owner place here entries)
    (hmem : (scanner.attachmentsFolder, Node.directory inner) ∈ entries) (hname : ProperName name) :
    fs.find (join (join (pathAt scanner.sourceDirectory place) scanner.attachmentsFolder) name)
        false = .ok (.node last found)
      ↔ Allowed scanner.attachmentsFolder ∧ Allowed name
        ∧ last = name :: scanner.attachmentsFolder :: here ∧ (name, found) ∈ inner := by
  obtain ⟨left, hat⟩ := h.reached
  cases h.wellNamed with
  | directory hdistinct hproper hinner =>
      have hfolder : ProperName scanner.attachmentsFolder := hproper _ hmem
      have hbehind := (behind_join hat.usable.ne_empty hfolder).join hname
      have hinside : Node.at? [scanner.attachmentsFolder] (.directory entries)
          = some (.directory inner) := by
        rw [Node.at?, (Keyed.find?_eq_some_iff_of_nodup hdistinct).2 hmem]
        rfl
      have husable : Usable (join (join (pathAt scanner.sourceDirectory place)
          scanner.attachmentsFolder) name)
            ↔ '\x00' ∉ scanner.attachmentsFolder.toList ∧ '\x00' ∉ name.toList := by
        rw [← usable_join hat.usable hfolder]
        constructor
        · intro hjoined
          have houter := usable_of_join (join_ne_empty hat.usable.ne_empty hfolder) hname hjoined
          exact ⟨houter, (usable_join houter hname).1 hjoined⟩
        · rintro ⟨houter, hnul⟩
          exact (usable_join houter hname).2 hnul
      cases hinner _ hmem with
      | directory hdistinct' _ _ =>
          rw [hat.find_behind_iff h.contents hbehind hinside, husable,
            Keyed.find?_eq_some_iff_of_nodup hdistinct']
          constructor
          · rintro ⟨⟨hnul, hnul'⟩, hshort, hlast⟩
            exact ⟨⟨hfolder, hnul, hshort _ (by simp)⟩, ⟨hname, hnul', hshort _ (by simp)⟩, hlast⟩
          · rintro ⟨hallowed, hallowed', hlast⟩
            exact ⟨⟨hallowed.nul, hallowed'.nul⟩, List.forall_mem_cons.2 ⟨hallowed.short,
              List.forall_mem_singleton.2 hallowed'.short⟩, hlast⟩

/-- The files published with the page are those of the directory and of the attachments folder
there, if that may be listed. -/
theorem mem_attachments_iff (h : Seat scanner fs owner place here entries) :
    file ∈ owner.attachments
      ↔ (∃ name, VisibleFile entries name ∧ name ≠ scanner.indexName ∧ isMarkdown name = false
          ∧ file = join (pathAt scanner.sourceDirectory place) name)
        ∨ ∃ inner name, (scanner.attachmentsFolder, Node.directory inner) ∈ entries
          ∧ isHidden scanner.attachmentsFolder = false
          ∧ fs.mayList (join (pathAt scanner.sourceDirectory place) scanner.attachmentsFolder)
            (scanner.attachmentsFolder :: here) = true
          ∧ VisibleFile inner name ∧ isMarkdown name = false
          ∧ file = join (join (pathAt scanner.sourceDirectory place) scanner.attachmentsFolder)
            name := by
  rw [h.owner_eq, Scanner.mem_attachments_indexAt]
  simp only [visibleFile_listedEntries, Files.mem_listedEntries_directory]
  refine or_congr Iff.rfl ?_
  constructor
  · intro ⟨listed, name, ⟨inner, hmem, hlist, hlisted⟩, hhidden, hvisible, hrest⟩
    subst hlisted
    exact ⟨inner, name, hmem, hhidden, hlist, visibleFile_listedEntries.1 hvisible, hrest⟩
  · intro ⟨inner, name, hmem, hhidden, hlist, hvisible, hrest⟩
    exact ⟨_, name, ⟨inner, hmem, hlist, rfl⟩, hhidden, visibleFile_listedEntries.2 hvisible, hrest⟩

/-- What is published with the page is not passed over. -/
theorem not_passedOver (h : Seat scanner fs owner place here entries)
    (hfile : file ∈ owner.attachments) (hfind : fs.find file false = .ok (.node last found)) :
    ¬ PassedOver scanner fs (join (pathAt scanner.sourceDirectory place) scanner.attachmentsFolder)
      here path last found := by
  have hentries := h.wellNamed
  rcases h.mem_attachments_iff.1 hfile with ⟨name, hvisible, -, hmarkdown, rfl⟩ |
    ⟨inner, name, hmem, hhidden, hlist, hvisible, hmarkdown, rfl⟩
  · obtain ⟨-, rfl, hfound⟩ := (h.find_name_iff (hvisible.properName hentries)).1 hfind
    obtain ⟨hhidden, hplain⟩ := hvisible.of_mem hentries hfound
    exact not_passedOver_of_reached hhidden hmarkdown hplain (.inl rfl)
  · cases hentries with
    | directory _ _ hinner =>
        have hinside := hinner _ hmem
        obtain ⟨hfolder, -, rfl, hfound⟩ :=
          (h.find_attached_iff hmem (hvisible.properName hinside)).1 hfind
        obtain ⟨hname, hplain⟩ := hvisible.of_mem hinside hfound
        exact not_passedOver_of_reached hname hmarkdown hplain
          (.inr ⟨rfl, hhidden, hlist, hfolder⟩)

/-- What is found in the directory or in the attachments folder there, and is not passed over, is
published with the page. -/
theorem exists_file (h : Seat scanner fs owner place here entries)
    (hindex : ".md".toList.isSuffixOf scanner.indexName.toList = true) {around : Place}
    (hlast : lookUp fs.root (name :: around) = some found) (hname : Allowed name)
    (hplain : found.isDirectory = false) (hdirectory : DirectoryAt fs.root around)
    (haround : around = here ∨ around = scanner.attachmentsFolder :: here)
    (hpassed : ¬ PassedOver scanner fs
      (join (pathAt scanner.sourceDirectory place) scanner.attachmentsFolder) here path
      (name :: around) found) :
    ∃ file ∈ owner.attachments, fs.find file false = .ok (.node (name :: around) found) := by
  have hhidden : isHidden name = false := by
    simpa using fun hname => hpassed (.hidden hname)
  have hmarkdown : isMarkdown name = false := by
    simpa using fun hname => hpassed (.markdown hname)
  cases h.wellNamed with
  | directory hdistinct hproper hinner =>
      rcases haround with rfl | rfl
      · rw [lookUp_cons h.contents, Keyed.find?_eq_some_iff_of_nodup hdistinct] at hlast
        have hvisible : VisibleFile entries name := ⟨found, hlast, hhidden, hplain⟩
        have hother : name ≠ scanner.indexName := by
          rintro rfl
          rw [isMarkdown_of_suffix hname.proper hindex hhidden] at hmarkdown
          cases hmarkdown
        exact ⟨_, h.mem_attachments_iff.2 (.inl ⟨name, hvisible, hother, hmarkdown, rfl⟩),
          (h.find_name_iff hname.proper).2 ⟨hname, rfl, hlast⟩⟩
      · have hopen : FolderOpen scanner fs
            (join (pathAt scanner.sourceDirectory place) scanner.attachmentsFolder) here := by
          by_contra hclosed
          exact hpassed (.closed hclosed)
        obtain ⟨inner, hfolder⟩ := hdirectory
        rw [lookUp_cons hfolder] at hlast
        rw [lookUp_cons h.contents, Keyed.find?_eq_some_iff_of_nodup hdistinct] at hfolder
        have hinside := hinner _ hfolder
        have hmem : (name, found) ∈ inner := Keyed.mem_of_find? hlast
        exact ⟨_, h.mem_attachments_iff.2 (.inr ⟨inner, name, hfolder, hopen.visible, hopen.listed,
            ⟨found, hmem, hhidden, hplain⟩, hmarkdown, rfl⟩),
          (h.find_attached_iff hfolder hname.proper).2 ⟨hopen.allowed, hname, rfl, hmem⟩⟩

end Seat

/-- A document lies in the directory of the page its files belong to. -/
theorem exists_directory_of_ownedBy {documents : List Document}
    (htree : fs.tree scanner.sourceDirectory = .ok contents)
    (hcontents : (Node.directory contents).WellNamed) (hscan : scanner.scan fs = .ok documents)
    (hdocument : document ∈ documents) (howner : owner ∈ documents)
    (howned : document.OwnedBy owner) (hsource : document.source = .file source) :
    ∃ place entries own, PageDirectory scanner.attachmentsFolder contents place entries
      ∧ owner = scanner.indexAt place entries ∧ ProperName own
      ∧ source = join (pathAt scanner.sourceDirectory place) own := by
  obtain ⟨place, entries, hdirectory, rfl | ⟨own, hvisible, -, -, rfl⟩⟩ :=
    (Scanner.mem_scan_iff htree hscan).1 hdocument
  · obtain ⟨hvisible, hpath⟩ := Scanner.source_indexAt_eq_file.1 hsource
    have hself : owner = scanner.indexAt place entries := howned
    exact ⟨place, entries, scanner.indexName, hdirectory, hself,
      hvisible.properName (hdirectory.wellNamed hcontents), hpath⟩
  · obtain ⟨hindex, hidentity⟩ :
        owner.isIndex = true ∧ owner.identity = (scanner.childAt place own).parentIdentity := howned
    rw [Scanner.parentIdentity_childAt] at hidentity
    have hpath := Scanner.source_childAt.symm.trans hsource
    cases hpath
    exact ⟨place, entries, own, hdirectory, Scanner.IsIndexOf.eq_indexAt hcontents htree hscan
      ⟨hindex, hidentity⟩ howner hdirectory, hvisible.properName (hdirectory.wellNamed hcontents),
      rfl⟩

/-- A document that can be read is an entry of the directory of that page. -/
theorem exists_seat {documents : List Document} {content : ByteArray} (hroot : fs.root.WellNamed)
    (hscan : scanner.scan fs = .ok documents) (hdocument : document ∈ documents)
    (howner : owner ∈ documents) (howned : document.OwnedBy owner)
    (hsource : document.source = .file source) (hread : fs.read source = .ok content) :
    ∃ place here entries own file, Seat scanner fs owner place here entries ∧ ProperName own
      ∧ source = join (pathAt scanner.sourceDirectory place) own
      ∧ fs.find source false = .ok (.node (own :: here) file)
      ∧ ∃ directory, Files.parent source = some directory := by
  obtain ⟨listed, htree⟩ := Scanner.exists_tree hscan hdocument
  obtain ⟨-, hlisted⟩ := FileSystem.wellNamed_of_tree hroot htree
  obtain ⟨place, entries, own, hlists, howner, hown, rfl⟩ :=
    exists_directory_of_ownedBy htree hlisted hscan hdocument howner howned hsource
  obtain ⟨base, contents, hfound, -, rfl⟩ := FileSystem.tree_eq_ok_iff.1 htree
  obtain ⟨left, hat, hbase⟩ := Files.find_eq_directory_iff.1 hfound
  have hcontents : (Node.directory contents).WellNamed := hroot.at? hbase
  obtain ⟨whole, hdirectory, rfl⟩ := hlists.exists_whole
  have hnonempty := hdirectory.path_ne_empty fs hcontents hat.usable.ne_empty
  have hproper := hdirectory.properNames hcontents
  have hinside := hdirectory.at? hcontents
  have hbehind := behind_pathAt hat.usable.ne_empty hproper hown
  obtain ⟨leaf, hwalk⟩ := Files.read_eq_ok_iff.1 hread
  obtain ⟨last, file, hfind⟩ := FileSystem.exists_entry (FileSystem.has_iff.2 ⟨leaf, _, hwalk⟩)
  obtain ⟨husable, hshort, rfl, -⟩ := (hat.find_behind_iff hbase hbehind hinside).1 hfind
  obtain ⟨left', hreached, hhere⟩ := hat.around hbase hnonempty hown hbehind hinside husable
    fun other hother => hshort other (List.mem_append_left _ hother)
  obtain ⟨directory, -, hparent, -⟩ :=
    exists_parent ((stepsOf_join hnonempty hown).trans (plainSteps_join hnonempty hown))
  rw [List.reverse_reverse] at hfind hreached hhere
  exact ⟨place, place ++ base, whole, own, file, ⟨howner, hdirectory.wellNamed hcontents,
    ⟨left', hreached⟩, hhere⟩, hown, rfl, hfind, directory, hparent⟩

end Seat

/-! ## What a reference leads to -/

section Reference

variable {folder destination directory name : String} {r : Reference}

/-- The segments of a reference to the document's own directory lead there, or to the attachments
folder there. -/
theorem lexically_of_reference (hfolder : folder ≠ "..")
    (hreference : reference folder destination = some r) (hcurrent : r.directory = .current)
    {front : List Files.Step} (hsteps : stepsOf (join directory r.path) = front ++ [.into name])
    (here : Place) :
    lexically here r.path.toList = name :: here
      ∨ lexically here r.path.toList = name :: folder :: here := by
  obtain ⟨hnonempty, hrelative, hsegments⟩ := reference_eq_some hreference
  rw [hsegments, ofSegments_eq_current_iff] at hcurrent
  obtain ⟨before, last, hpath⟩ :=
    (List.eq_nil_or_concat' (stepsOf r.path)).resolve_left (stepsOf_ne_nil hnonempty)
  rw [stepsOf_join_of_relative directory hrelative hnonempty, hpath, ← List.append_assoc] at hsteps
  obtain ⟨-, hlast⟩ := List.append_inj' hsteps rfl
  cases hlast
  obtain ⟨outer, houter, hname, -⟩ := segmentsOf_of_into hpath
  exact lexically_of_current hfolder hname (by rw [houter, List.getLast?_concat]) hcurrent here

/-- **What is published is what the scan does not pass over.** -/
theorem Seat.uploaded_iff {scanner : Scanner} {fs : FileSystem} {owner : Document}
    {place here last : Place} {entries : Keyed Node} {found : Node}
    (h : Seat scanner fs owner place here entries) (hfolder : scanner.attachmentsFolder ≠ "..")
    (hindex : ".md".toList.isSuffixOf scanner.indexName.toList = true)
    (hreference : reference scanner.attachmentsFolder destination = some r)
    (hcurrent : r.directory = .current)
    (hfind : fs.find (join directory r.path) false = .ok (.node last found)) :
    Uploaded fs owner (join directory r.path)
      ↔ ¬ PassedOver scanner fs
        (join (pathAt scanner.sourceDirectory place) scanner.attachmentsFolder) here r.path
        last found := by
  constructor
  · rintro ⟨file, hfile, place', node, hpath, hother⟩
    have hsame := hpath.symm.trans hfind
    cases hsame
    exact h.not_passedOver hfile hother
  · intro hpassed
    have hplain : found.isDirectory = false := by
      by_contra hdirectory
      rw [Bool.not_eq_false, Node.isDirectory_iff] at hdirectory
      obtain ⟨inside, rfl⟩ := hdirectory
      exact hpassed .directory
    obtain ⟨front, name, around, hsteps, rfl, hname, hdirectory⟩ :=
      FileSystem.allowed_of_find hfind hplain
    have haround : around = here ∨ around = scanner.attachmentsFolder :: here := by
      by_contra hastray
      obtain ⟨hhere, hinside⟩ := not_or.1 hastray
      refine hpassed (.astray hhere hinside fun hlast => ?_)
      rcases lexically_of_reference hfolder hreference hcurrent hsteps here with hleads | hleads
      · exact hhere (List.cons.inj (hlast.trans hleads)).2
      · exact hinside (List.cons.inj (hlast.trans hleads)).2
    obtain ⟨file, hfile, hother⟩ := h.exists_file hindex (FileSystem.lookUp_of_find hfind) hname
      hplain hdirectory haround hpassed
    exact ⟨file, hfile, _, _, hfind, hother⟩

end Reference

end WikiPress.Sync
