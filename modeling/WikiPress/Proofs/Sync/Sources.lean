import WikiPress.Proofs.Files.LinkFree
import WikiPress.Proofs.Sync.Inventory

/-!
# WikiPress.Proofs.Sync.Sources

The files that documents come from.

Design points:

* A document's file lies below the source directory under proper names, the last of which is
  that of a Markdown file, and is the index name if the document is an index (`ComesFrom`).
  Files that are published with a page have other names (`not_markdown_of_attached`).
* Such names say all about the way from the source directory to the file, if no link is on it.
  So the file can be read if its path is good at all (`ComesFrom.exists_read`).
-/

namespace WikiPress.Sync

open WikiPress.Files (FileSystem Node Place Step ProperName Behind Leads join fileName)

/-! ## Names of Markdown files -/

/-- A name that ends as Markdown files do is one of theirs, if there is more to it. -/
theorem isMarkdown_of_suffix {name : String} (hname : ProperName name)
    (hsuffix : ".md".toList.isSuffixOf name.toList = true) (hhidden : isHidden name = false) :
    isMarkdown name = true := by
  obtain ⟨front, hfront⟩ := List.isSuffixOf_iff_suffix.1 hsuffix
  have hstem : front.reverse ≠ [] := by
    rw [Ne, List.reverse_eq_nil_iff]
    rintro rfl
    simp [isHidden, ← hfront] at hhidden
  have hsplit : Files.splitExtension name.toList = (front, some "md".toList) := by
    obtain ⟨last, more, hlast⟩ := List.exists_cons_of_ne_nil hstem
    have hwhole : more.reverse ++ [last] = front := by
      rw [← List.reverse_cons, ← hlast, List.reverse_reverse]
    simp [Files.splitExtension, ← hfront, hlast, hwhole]
  rw [isMarkdown, Files.extension, hname.fileName, Option.bind_some, hsplit]
  rfl

/-! ## Where documents come from -/

/-- Whether a document comes from the file of a name at a place below the source directory. -/
structure ComesFrom (scanner : Scanner) (contents : Keyed Node) (document : Document)
    (place : Place) (name : String) : Prop where
  source : document.source = .file (join (pathAt scanner.sourceDirectory place) name)
  places : ∀ other ∈ place, ProperName other
  proper : ProperName name
  markdown : isMarkdown name = true
  index : document.isIndex = (name == scanner.indexName)
  file : ∃ node, Node.at? (place.reverse ++ [name]) (.directory contents) = some node
    ∧ node.isDirectory = false

/-- What is at the place of a page directory. -/
theorem PageDirectory.at? {attachmentsFolder : String} {contents entries : Keyed Node}
    {place : Place} (h : PageDirectory attachmentsFolder contents place entries)
    (hcontents : (Node.directory contents).WellNamed) :
    Node.at? place.reverse (.directory contents) = some (.directory entries) := by
  induction h with
  | source => rfl
  | @inside place entries inner name h hmem _ _ ih =>
      cases h.wellNamed hcontents with
      | directory hdistinct _ _ =>
          have hfind := (Keyed.find?_eq_some_iff_of_nodup hdistinct).2 hmem
          rw [List.reverse_cons, Node.at?_append, ih, Option.bind_some, Node.at?, hfind]
          rfl

theorem VisibleFile.at? {attachmentsFolder : String} {contents entries : Keyed Node}
    {place : Place} {name : String} (h : VisibleFile entries name)
    (hdirectory : PageDirectory attachmentsFolder contents place entries)
    (hcontents : (Node.directory contents).WellNamed) :
    ∃ node, Node.at? (place.reverse ++ [name]) (.directory contents) = some node
      ∧ node.isDirectory = false := by
  obtain ⟨node, hmem, -, hnode⟩ := h
  cases hdirectory.wellNamed hcontents with
  | directory hdistinct _ _ =>
      have hfind := (Keyed.find?_eq_some_iff_of_nodup hdistinct).2 hmem
      refine ⟨node, ?_, hnode⟩
      rw [Node.at?_append, hdirectory.at? hcontents, Option.bind_some, Node.at?, hfind]
      rfl

section Scan

variable {scanner : Scanner} {fs : FileSystem} {documents : List Document} {document : Document}
  (hroot : fs.root.WellNamed) (hscan : scanner.scan fs = .ok documents)
  (hmem : document ∈ documents)

include hroot hscan hmem

theorem exists_comesFrom (hsuffix : ".md".toList.isSuffixOf scanner.indexName.toList = true)
    {path : String} (hsource : document.source = .file path) :
    ∃ contents place name, fs.node scanner.sourceDirectory = .ok (.directory contents)
      ∧ ComesFrom scanner contents document place name
      ∧ path = join (pathAt scanner.sourceDirectory place) name := by
  obtain ⟨listed, htree⟩ := Scanner.exists_tree hscan hmem
  obtain ⟨base, contents, hfind, -, rfl⟩ := FileSystem.tree_eq_ok_iff.1 htree
  have hnode := FileSystem.node_of_find hfind
  obtain ⟨-, hcontents⟩ := FileSystem.wellNamed_of_node hroot hnode
  obtain ⟨place, entries, hlisted, hdocument⟩ := (Scanner.mem_scan_iff htree hscan).1 hmem
  obtain ⟨whole, hdirectory, rfl⟩ := hlisted.exists_whole
  rcases hdocument with rfl | ⟨name, hfile, hother, hmarkdown, rfl⟩
  · obtain ⟨hfile, rfl⟩ := Scanner.source_indexAt_eq_file.1 hsource
    rw [visibleFile_listedEntries] at hfile
    have hproper := hfile.properName (hdirectory.wellNamed hcontents)
    have hhidden : isHidden scanner.indexName = false := by
      obtain ⟨_, _, hhidden, _⟩ := hfile
      exact hhidden
    exact ⟨contents, place, scanner.indexName, hnode, ⟨hsource, hdirectory.properNames hcontents,
      hproper, isMarkdown_of_suffix hproper hsuffix hhidden, (beq_self_eq_true _).symm,
      hfile.at? hdirectory hcontents⟩, rfl⟩
  · rw [visibleFile_listedEntries] at hfile
    have hpath := hsource.symm.trans Scanner.source_childAt
    cases hpath
    exact ⟨contents, place, name, hnode, ⟨hsource, hdirectory.properNames hcontents,
      hfile.properName (hdirectory.wellNamed hcontents), hmarkdown,
      (beq_eq_false_iff_ne.2 hother).symm, hfile.at? hdirectory hcontents⟩, rfl⟩

/-- The files published with a page have no names of Markdown files. -/
theorem not_markdown_of_attached {path name : String} (hpath : path ∈ document.attachments)
    (hname : fileName path = some name) : isMarkdown name = false := by
  obtain ⟨contents, htree⟩ := Scanner.exists_tree hscan hmem
  obtain ⟨-, hcontents⟩ := FileSystem.wellNamed_of_tree hroot htree
  have hnonempty := ne_empty_of_tree htree
  obtain ⟨place, entries, hdirectory, rfl | ⟨_, _, _, _, rfl⟩⟩ :=
    (Scanner.mem_scan_iff htree hscan).1 hmem
  · have hentries := hdirectory.wellNamed hcontents
    have hplace := hdirectory.path_ne_empty fs hcontents hnonempty
    rcases Scanner.mem_attachments_indexAt.1 hpath with
      ⟨other, hfile, -, hmarkdown, rfl⟩ | ⟨inner, other, hfolder, -, hfile, hmarkdown, rfl⟩
    · rw [Files.fileName_join hplace (hfile.properName hentries)] at hname
      exact Option.some.inj hname ▸ hmarkdown
    · cases hentries with
      | directory _ hproper hinner =>
          rw [Files.fileName_join (Files.join_ne_empty hplace (hproper _ hfolder))
            (hfile.properName (hinner _ hfolder))] at hname
          exact Option.some.inj hname ▸ hmarkdown
  -- a page beside an index has none
  · exact absurd hpath List.not_mem_nil

end Scan

/-! ## Reading a document's file -/

/-- What was rendered was read. -/
theorem read_of_renderFile {style : Storage.Style} {context : Storage.Context} {fs : FileSystem}
    {page : Storage.Page} {path : String}
    (h : Storage.renderFile style context fs path = .ok page) :
    ∃ content, fs.read path = .ok content := by
  cases hcontent : fs.read path with
  | ok content => exact ⟨content, rfl⟩
  | error e =>
      simp only [Storage.renderFile, FileSystem.readText, hcontent, bind, Except.bind] at h
      cases h

/-- A place is behind the directory it is seen from. -/
theorem behind_pathAt {directory name : String} {place : Place} (hdirectory : directory ≠ "")
    (hplace : ∀ other ∈ place, ProperName other) (hname : ProperName name) :
    Behind directory (place.reverse ++ [name]) (join (pathAt directory place) name) := by
  induction place generalizing name with
  | nil => exact Files.behind_join hdirectory hname
  | cons inner outer ih =>
      obtain ⟨hinner, houter⟩ := List.forall_mem_cons.1 hplace
      rw [List.reverse_cons]
      exact (ih houter hinner).join hname

namespace ComesFrom

variable {scanner : Scanner} {contents : Keyed Node} {document : Document} {place : Place}
  {name : String}

theorem fileName (h : ComesFrom scanner contents document place name)
    (hsource : scanner.sourceDirectory ≠ "") :
    Files.fileName (join (pathAt scanner.sourceDirectory place) name) = some name := by
  refine Files.fileName_join ?_ h.proper
  cases place with
  | nil => exact hsource
  | cons inner outer =>
      obtain ⟨hinner, houter⟩ := List.forall_mem_cons.1 h.places
      exact (behind_pathAt hsource houter hinner).nonempty

/-- The file can be read in a tree without links if its path can be used and its names are short
enough, as they are where it was read at any time. -/
theorem exists_read (h : ComesFrom scanner contents document place name) {fs later : FileSystem}
    (hroot : fs.root.LinkFree) (hnode : fs.node scanner.sourceDirectory = .ok (.directory contents))
    {content : ByteArray}
    (hread : later.read (join (pathAt scanner.sourceDirectory place) name) = .ok content) :
    ∃ old, fs.read (join (pathAt scanner.sourceDirectory place) name) = .ok old := by
  obtain ⟨source, left, hat, hcontents⟩ := Files.node_eq_directory_iff.1 hnode
  have hbehind := behind_pathAt hat.usable.ne_empty h.places h.proper
  obtain ⟨_, hwalk⟩ := Files.read_eq_ok_iff.1 hread
  obtain ⟨husable, ⟨_, hleads⟩, -⟩ := Files.walkFrom_eq_ok_iff.1 hwalk
  rw [hbehind.steps, hbehind.plain] at hleads
  have hshort : ∀ other ∈ place.reverse ++ [name], ¬ Files.nameLimit < other.utf8ByteSize :=
    fun other hother => hleads.short (List.mem_append_right _ (List.mem_map_of_mem hother))
  obtain ⟨node, hfile, hplain⟩ := h.file
  have hfree : node.LinkFree := (hroot.at? hcontents).at? hfile
  cases node with
  | directory _ => cases hplain
  | link target => exact absurd rfl (hfree.not_link target)
  | file old =>
      have hnames : Files.walk fs.root true left source (.directory contents)
          ((place.reverse ++ [name]).map Step.into)
            = .ok (.node ((place.reverse ++ [name]).reverse ++ source) (.file old)) :=
        Files.walk_names _ hshort hfile (by simp)
      refine ⟨old, Files.read_eq_ok_iff.2 ⟨(place.reverse ++ [name]).reverse ++ source, ?_⟩⟩
      rw [hbehind.steps, hbehind.plain, Files.walkFrom_append husable
        (hbehind.start fs ▸ hat.leads) hcontents (by simp)]
      exact hnames

end ComesFrom

end WikiPress.Sync
