import WikiPress.CommandLine.Execute
import WikiPress.Proofs.Sync.Directories
import WikiPress.Proofs.Sync.Forecast

/-!
# WikiPress.Proofs.Sync.Identity

When the documents of a scan have different identities.

An identity is the text of a place: its names with slashes between. The segments of the text
are the names again (`segmentsOf_identityOf`), so two pages beside an index have one identity
only if they are one, and so have two indexes. An index and a page beside another index are
told apart by their last names, unless the index name itself has slashes in it.

Design points:

* `Apart` is what holds whatever the index name is. It is proved along the recursion of the
  scan: the documents of a subdirectory have its name in their identities, where the others
  have another one or none.
* `IndexClash` is what is left over: a Markdown file at the path the index name leads to.
-/

namespace WikiPress.Sync

open WikiPress.CommandLine (scannerOf)
open WikiPress.Files (FileSystem Node Place ProperName pathLimit)
open WikiPress.Text (segmentsOf)

variable {place other inward base : Place} {name text : String}

/-! ## The text of a place -/

theorem identityOf_cons (name : String) (place : Place) :
    identityOf (name :: place) = identityIn (identityOf place) name := rfl

theorem identityIn_empty (name : String) : identityIn "" name = name := rfl

theorem identityIn_of_ne {relative : String} (h : relative ≠ "") (name : String) :
    identityIn relative name = relative ++ "/" ++ name :=
  if_neg (by simpa using h)

theorem identityIn_ne_empty {relative : String} (h : name ≠ "") :
    identityIn relative name ≠ "" := by
  by_cases hrelative : relative = ""
  · rw [hrelative, identityIn_empty]
    exact h
  · rw [identityIn_of_ne hrelative]
    simp [h]

theorem identityIn_right_inj {relative : String} :
    identityIn relative name = identityIn relative text ↔ name = text := by
  refine ⟨fun h => ?_, congrArg _⟩
  by_cases hrelative : relative = ""
  · rw [hrelative] at h
    exact h
  · rw [identityIn_of_ne hrelative, identityIn_of_ne hrelative] at h
    simpa using h

theorem identityIn_assoc {relative : String} (h : name ≠ "") :
    identityIn (identityIn relative name) text = identityIn relative (identityIn name text) := by
  by_cases hrelative : relative = ""
  · rw [hrelative, identityIn_empty, identityIn_empty]
  · rw [identityIn_of_ne (identityIn_ne_empty h), identityIn_of_ne hrelative,
      identityIn_of_ne hrelative, identityIn_of_ne h]
    simp [String.append_assoc]

/-- Places may be put one inside the other. -/
theorem identityOf_append (hinward : ∀ name ∈ inward, ProperName name) :
    identityOf (text :: (inward ++ place))
      = identityIn (identityOf place) (identityOf (text :: inward)) := by
  induction inward generalizing text with
  | nil => rfl
  | cons name rest ih =>
      obtain ⟨hname, hrest⟩ := List.forall_mem_cons.1 hinward
      have hne : identityOf (name :: rest) ≠ "" := identityIn_ne_empty hname.nonempty
      rw [List.cons_append, identityOf_cons, ih hrest, identityIn_assoc hne]
      rfl

/-- The segments of an identity are the names of its place and those of the last name. -/
theorem segmentsOf_identityOf (hplace : ∀ name ∈ place, ProperName name) (text : String) :
    segmentsOf (identityOf (text :: place)).toList
      = place.reverse.map String.toList ++ segmentsOf text.toList := by
  induction place generalizing text with
  | nil => rfl
  | cons name rest ih =>
      obtain ⟨hname, hrest⟩ := List.forall_mem_cons.1 hplace
      have hne : identityOf (name :: rest) ≠ "" := identityIn_ne_empty hname.nonempty
      have hjoin : (identityOf (text :: name :: rest)).toList
          = (identityOf (name :: rest)).toList ++ '/' :: text.toList := by
        rw [identityOf_cons, identityIn_of_ne hne]
        simp
      rw [hjoin, Files.segmentsOf_append, ih hrest,
        Files.segmentsOf_of_not_mem hname.slash, List.reverse_cons, List.map_append]
      rfl

theorem map_toList_injective : Function.Injective (List.map String.toList) :=
  List.map_injective_iff.2 fun _ _ h => String.toList_inj.1 h

/-- Behind the same text, the same identity is the same place. -/
theorem place_eq_of_identityOf_eq (hplace : ∀ name ∈ place, ProperName name)
    (hother : ∀ name ∈ other, ProperName name)
    (h : identityOf (text :: place) = identityOf (text :: other)) : place = other := by
  have hsegments := congrArg (fun identity : String => segmentsOf identity.toList) h
  simp only [segmentsOf_identityOf hplace, segmentsOf_identityOf hother] at hsegments
  exact List.reverse_injective (map_toList_injective (List.append_cancel_right hsegments))

/-- An identity of proper names is that of one place. -/
theorem eq_of_identityOf_eq (hname : ProperName name) (htext : ProperName text)
    (hplace : ∀ name ∈ place, ProperName name) (hother : ∀ name ∈ other, ProperName name)
    (h : identityOf (name :: place) = identityOf (text :: other)) :
    name = text ∧ place = other := by
  have hsegments := congrArg (fun identity : String => segmentsOf identity.toList) h
  simp only [segmentsOf_identityOf hplace, segmentsOf_identityOf hother,
    Files.segmentsOf_of_not_mem hname.slash, Files.segmentsOf_of_not_mem htext.slash]
    at hsegments
  obtain ⟨hnames, hlast⟩ := List.append_inj' hsegments rfl
  exact ⟨String.toList_inj.1 (List.cons.inj hlast).1,
    List.reverse_injective (map_toList_injective hnames)⟩

theorem segmentsOf_ne_nil (path : List Char) : segmentsOf path ≠ [] := by
  have hgo : ∀ segment, segmentsOf.go segment path ≠ [] := by
    intro segment
    fun_induction segmentsOf.go segment path with
    | case1 | case2 => exact List.cons_ne_nil _ _
    | case3 _ _ _ _ ih => exact ih
  exact hgo []

/-- A name further in has the identity of a text further out only if the text is the way from
there. -/
theorem identityOf_eq_iff (hname : ProperName name) (hplace : ∀ name ∈ place, ProperName name)
    (hother : ∀ name ∈ other, ProperName name) :
    identityOf (name :: other) = identityOf (text :: place)
      ↔ ∃ inward, other = inward ++ place ∧ identityOf (name :: inward) = text := by
  constructor
  · intro h
    have hsegments := congrArg (fun identity : String => segmentsOf identity.toList) h
    simp only [segmentsOf_identityOf hplace, segmentsOf_identityOf hother,
      Files.segmentsOf_of_not_mem hname.slash] at hsegments
    -- all segments of the text but the last are names on the way
    obtain ⟨front, last, htext⟩ :=
      (List.eq_nil_or_concat' (segmentsOf text.toList)).resolve_left (segmentsOf_ne_nil _)
    rw [htext, ← List.append_assoc] at hsegments
    obtain ⟨hway, _⟩ := List.append_inj' hsegments rfl
    obtain ⟨outer, inner, hreverse, houter, _⟩ := List.map_eq_append_iff.1 hway
    obtain rfl := map_toList_injective houter
    have hsplit : other = inner.reverse ++ place := by
      rw [← List.reverse_reverse other, hreverse, List.reverse_append, List.reverse_reverse]
    have hinner : ∀ name ∈ inner.reverse, ProperName name := fun n hn =>
      hother n (hsplit ▸ List.mem_append_left _ hn)
    rw [hsplit, identityOf_append hinner, identityOf_cons text, identityIn_right_inj] at h
    exact ⟨inner.reverse, hsplit, h⟩
  · rintro ⟨inward, rfl, rfl⟩
    exact identityOf_append fun n hn => hother n (List.mem_append_left _ hn)

/-- The way through directories has slashes in it. -/
theorem slash_mem_identityOf (hinward : inward ≠ []) (hnames : ∀ name ∈ inward, ProperName name) :
    '/' ∈ (identityOf (name :: inward)).toList := by
  cases inward with
  | nil => exact absurd rfl hinward
  | cons first rest =>
      obtain ⟨hfirst, _⟩ := List.forall_mem_cons.1 hnames
      have hne : identityOf (first :: rest) ≠ "" := identityIn_ne_empty hfirst.nonempty
      rw [identityOf_cons, identityIn_of_ne hne]
      simp

/-! ## Documents at places -/

/-- Whether a document has the identity of an index at a place, or of a page beside it. -/
def NamedAt (indexName : String) (place : Place) (document : Document) : Prop :=
  document.isIndex = true ∧ document.identity = identityOf (indexName :: place)
    ∨ document.isIndex = false
      ∧ ∃ name, ProperName name ∧ document.identity = identityOf (name :: place)

/-- Whether two indexes, or two pages beside indexes, have different identities. -/
def Apart (a b : Document) : Prop := a.isIndex = b.isIndex → a.identity ≠ b.identity

theorem Apart.symm {a b : Document} (h : Apart a b) : Apart b a :=
  fun hkind hidentity => h hkind.symm hidentity.symm

instance : Std.Symm Apart := ⟨fun _ _ => Apart.symm⟩

/-- Documents at different places are apart. -/
theorem NamedAt.apart {indexName : String} {a b : Document} (ha : NamedAt indexName place a)
    (hb : NamedAt indexName other b) (hplace : ∀ name ∈ place, ProperName name)
    (hother : ∀ name ∈ other, ProperName name) (hne : place ≠ other) : Apart a b := by
  intro hkind hidentity
  rcases ha with ⟨haindex, ha⟩ | ⟨hachild, n, hn, ha⟩
  · rcases hb with ⟨_, hb⟩ | ⟨hbchild, _⟩
    · rw [ha, hb] at hidentity
      exact hne (place_eq_of_identityOf_eq hplace hother hidentity)
    · rw [haindex, hbchild] at hkind
      cases hkind
  · rcases hb with ⟨hbindex, _⟩ | ⟨_, m, hm, hb⟩
    · rw [hachild, hbindex] at hkind
      cases hkind
    · rw [ha, hb] at hidentity
      exact hne (eq_of_identityOf_eq hn hm hplace hother hidentity).2

namespace Scanner

variable {scanner : Scanner} {start folder : Folder} {contents entries : Keyed Node}
  {document : Document}

theorem namedAt_of_mem_documentsAt (hentries : (Node.directory entries).WellNamed)
    (hfolder : folder.relative = identityOf place)
    (h : document ∈ scanner.documentsAt folder entries) :
    NamedAt scanner.indexName place document := by
  rcases List.mem_cons.1 h with rfl | hchild
  · exact Or.inl ⟨rfl, congrArg (identityIn · scanner.indexName) hfolder⟩
  · obtain ⟨name, hfile, _, _, rfl⟩ := mem_childDocuments.1 hchild
    exact Or.inr ⟨rfl, name, hfile.properName hentries, congrArg (identityIn · name) hfolder⟩

/-- What is found below a directory is named at or below its place. -/
theorem namedAt_of_mem_documentsOf {node : Node} (hnode : node.WellNamed)
    (hstart : start.relative = identityOf base) (h : document ∈ scanner.documentsOf start node) :
    ∃ place, (∀ name ∈ place, ProperName name)
      ∧ NamedAt scanner.indexName (place ++ base) document := by
  cases node with
  | directory contents =>
      obtain ⟨place, entries, hdirectory, hdocument⟩ := mem_documentsOf_iff.1 h
      exact ⟨place, hdirectory.properNames hnode,
        namedAt_of_mem_documentsAt (hdirectory.wellNamed hnode) (relative_folderAt hstart)
          hdocument⟩
  | file _ | link _ => simp [documentsOf] at h

/-- The documents below a directory, subdirectory by subdirectory. -/
theorem documentsBelow_eq_flatMap (entries : Keyed Node) :
    scanner.documentsBelow folder entries = entries.flatMap fun entry =>
      if isHidden entry.1 || entry.1 == scanner.attachmentsFolder then []
      else scanner.documentsOf (scanner.subfolder folder entry.1) entry.2 := by
  induction entries with
  | nil => simp [documentsBelow]
  | cons entry rest ih =>
      obtain ⟨name, node⟩ := entry
      rw [documentsBelow, List.flatMap_cons, ih]
      split <;> rfl

/-- The pages beside one index are apart. -/
theorem pairwise_childDocuments (hentries : (entries.map Prod.fst).Nodup) :
    (scanner.childDocuments folder entries).Pairwise Apart := by
  have hdistinct : entries.Pairwise fun a b => a.1 ≠ b.1 := List.pairwise_map.1 hentries
  refine List.pairwise_map.2 ((hdistinct.filter _).imp fun hne _ hidentity => hne ?_)
  exact identityIn_right_inj.1 hidentity

section Apart

variable (hstart : start.relative = identityOf base) (hbase : ∀ name ∈ base, ProperName name)

include hstart hbase

/-- What is found below a subdirectory has its name in the place. -/
theorem namedAt_of_subfolder {node : Node} (hname : ProperName name) (hnode : node.WellNamed)
    (h : document ∈ scanner.documentsOf (scanner.subfolder start name) node) :
    ∃ place, (∀ n ∈ place ++ name :: base, ProperName n)
      ∧ NamedAt scanner.indexName (place ++ name :: base) document := by
  have hsub : (scanner.subfolder start name).relative = identityOf (name :: base) :=
    congrArg (identityIn · name) hstart
  obtain ⟨place, hplace, hnamed⟩ := namedAt_of_mem_documentsOf hnode hsub h
  exact ⟨place, List.forall_mem_append.2 ⟨hplace, List.forall_mem_cons.2 ⟨hname, hbase⟩⟩, hnamed⟩

/-- The documents of a directory are apart from those below. -/
theorem apart_below {a b : Document} (hcontents : (Node.directory contents).WellNamed)
    (ha : a ∈ scanner.documentsAt start contents)
    (hb : b ∈ scanner.documentsBelow start contents) : Apart a b := by
  have hnamed := namedAt_of_mem_documentsAt hcontents hstart ha
  cases hcontents with
  | directory _ hproper hinner =>
      obtain ⟨name, node, hmem, _, _, hdocument⟩ := mem_documentsBelow.1 hb
      obtain ⟨place, hplace, hbelow⟩ :=
        namedAt_of_subfolder hstart hbase (hproper _ hmem) (hinner _ hmem) hdocument
      refine hnamed.apart hbelow hbase hplace fun heq => ?_
      have hlength := congrArg List.length heq
      simp only [List.length_append, List.length_cons] at hlength
      omega

/-- The documents below different subdirectories are apart. -/
theorem apart_subfolders {a b : Document} {node sibling : Node} (hname : ProperName name)
    (htext : ProperName text) (hne : name ≠ text) (hnode : node.WellNamed)
    (hsibling : sibling.WellNamed)
    (ha : a ∈ scanner.documentsOf (scanner.subfolder start name) node)
    (hb : b ∈ scanner.documentsOf (scanner.subfolder start text) sibling) : Apart a b := by
  obtain ⟨place, hplace, ha⟩ := namedAt_of_subfolder hstart hbase hname hnode ha
  obtain ⟨other, hother, hb⟩ := namedAt_of_subfolder hstart hbase htext hsibling hb
  refine ha.apart hb hplace hother fun heq => hne ?_
  have hways : (place ++ [name]) ++ base = (other ++ [text]) ++ base := by simpa using heq
  exact (List.append_singleton_inj.1 (List.append_cancel_right hways)).2

/-- The documents below a directory are apart if those of each subdirectory are. -/
theorem pairwise_documentsBelow (hcontents : (Node.directory contents).WellNamed)
    (h : ∀ entry ∈ contents,
      (scanner.documentsOf (scanner.subfolder start entry.1) entry.2).Pairwise Apart) :
    (scanner.documentsBelow start contents).Pairwise Apart := by
  cases hcontents with
  | directory hdistinct hproper hinner =>
      rw [documentsBelow_eq_flatMap, List.pairwise_flatMap]
      constructor
      · intro entry hmem
        split
        · exact List.Pairwise.nil
        · exact h entry hmem
      · refine (List.pairwise_map.1 hdistinct).imp_of_mem fun {a b} ha hb hne x hx y hy => ?_
        split at hx
        · cases hx
        · split at hy
          · cases hy
          · exact apart_subfolders hstart hbase (hproper _ ha) (hproper _ hb) hne (hinner _ ha)
              (hinner _ hb) hx hy

end Apart

/-- The documents of a scan are apart. -/
theorem pairwise_documentsOf {node : Node} (hnode : node.WellNamed)
    (hbase : ∀ name ∈ base, ProperName name) (hstart : start.relative = identityOf base) :
    (scanner.documentsOf start node).Pairwise Apart := by
  induction hnode generalizing base start with
  | file _ | link _ => simp [documentsOf]
  | @directory contents hdistinct hproper hinner ih =>
      have hcontents : (Node.directory contents).WellNamed := .directory hdistinct hproper hinner
      have hbelow : (scanner.documentsBelow start contents).Pairwise Apart :=
        pairwise_documentsBelow hstart hbase hcontents fun entry hmem =>
          ih entry hmem (List.forall_mem_cons.2 ⟨hproper _ hmem, hbase⟩)
            (congrArg (identityIn · entry.1) hstart)
      have hown : ∀ a ∈ scanner.documentsAt start contents,
          ∀ b ∈ scanner.documentsBelow start contents, Apart a b :=
        fun a ha b hb => apart_below hstart hbase hcontents ha hb
      rw [documentsOf, List.pairwise_append, List.pairwise_cons]
      refine ⟨pairwise_childDocuments hdistinct,
        ⟨hown _ List.mem_cons_self, hbelow⟩, fun a ha b hb => ?_⟩
      rcases List.mem_cons.1 hb with rfl | hb
      · obtain ⟨name, _, _, _, rfl⟩ := mem_childDocuments.1 ha
        exact fun hkind => by cases hkind
      · exact hown a (List.mem_cons_of_mem _ ha) b hb

end Scanner

/-! ## The identities of a scan -/

/-- Whether a Markdown file stands at the path the index name leads to from a directory further
out. That takes an index name that leads through directories. -/
def IndexClash (scanner : Scanner) (contents : Keyed Node) : Prop :=
  ∃ place inward entries name,
    PageDirectory scanner.attachmentsFolder contents (inward ++ place) entries ∧ inward ≠ []
      ∧ VisibleFile entries name ∧ isMarkdown name = true
      ∧ identityOf (name :: inward) = scanner.indexName

section Clash

variable {scanner : Scanner} {fs : FileSystem} {contents : Keyed Node} {documents : List Document}
  (hwellNamed : (Node.directory contents).WellNamed)
  (hcontents : fs.tree scanner.sourceDirectory = .ok contents)
  (hscan : scanner.scan fs = .ok documents)

include hwellNamed hcontents hscan

theorem pairwise_scan : documents.Pairwise Apart := by
  rw [Scanner.scan_eq_ok hcontents] at hscan
  cases hscan
  exact (List.Perm.pairwise_iff Apart.symm (inOrder_perm _)).2
    (Scanner.pairwise_documentsOf hwellNamed (fun _ h => absurd h List.not_mem_nil) rfl)

/-- Where an index and a page beside another one have one identity, the index name is the way
from the one to the other. -/
theorem exists_way_of_identity_eq {index page : Document} (hindex : index ∈ documents)
    (hpage : page ∈ documents) (hkind : index.isIndex = true) (hother : page.isIndex = false)
    (heq : page.identity = index.identity) :
    ∃ place inward entries name,
      PageDirectory scanner.attachmentsFolder contents (inward ++ place) entries
        ∧ VisibleFile entries name ∧ name ≠ scanner.indexName ∧ isMarkdown name = true
        ∧ identityOf (name :: inward) = scanner.indexName ∧ index.level = place.length
        ∧ page.level = (inward ++ place).length + 1 := by
  obtain ⟨place, outer, hplace, rfl | ⟨_, _, _, _, rfl⟩⟩ :=
    (Scanner.mem_scan_iff hcontents hscan).1 hindex
  swap
  · cases hkind
  obtain ⟨further, entries, hfurther, rfl | ⟨name, hfile, hne, hmarkdown, rfl⟩⟩ :=
    (Scanner.mem_scan_iff hcontents hscan).1 hpage
  · cases hother
  have hname := hfile.properName (hfurther.wellNamed hwellNamed)
  rw [Scanner.identity_childAt, Scanner.identity_indexAt,
    identityOf_eq_iff hname (hplace.properNames hwellNamed) (hfurther.properNames hwellNamed)]
    at heq
  obtain ⟨inward, rfl, hway⟩ := heq
  exact ⟨place, inward, entries, name, hfurther, hfile, hne, hmarkdown, hway,
    Scanner.level_indexAt, Scanner.level_childAt⟩

/-- An index and a page beside another one have one identity only where the index name leads
to the page. -/
theorem indexClash_of_identity_eq {index page : Document} (hindex : index ∈ documents)
    (hpage : page ∈ documents) (hkind : index.isIndex = true) (hother : page.isIndex = false)
    (heq : page.identity = index.identity) : IndexClash scanner contents := by
  obtain ⟨place, inward, entries, name, hdirectory, hfile, hne, hmarkdown, hway, _⟩ :=
    exists_way_of_identity_eq hwellNamed hcontents hscan hindex hpage hkind hother heq
  refine ⟨place, inward, entries, name, hdirectory, ?_, hfile, hmarkdown, hway⟩
  rintro rfl
  exact hne hway

/-- A page the index name leads to has the identity of an index. -/
theorem exists_identity_eq (hclash : IndexClash scanner contents) :
    ∃ index ∈ documents, ∃ page ∈ documents,
      index ≠ page ∧ index.identity = page.identity := by
  obtain ⟨place, inward, entries, name, hdirectory, hinward, hfile, hmarkdown, hway⟩ := hclash
  obtain ⟨outer, hplace⟩ := hdirectory.around
  have hnames := hdirectory.properNames hwellNamed
  have hname := hfile.properName (hdirectory.wellNamed hwellNamed)
  -- the index name has a slash, so it is no file's
  have hne : name ≠ scanner.indexName := by
    intro hsame
    refine hname.slash (hsame ▸ hway ▸ slash_mem_identityOf hinward fun n hn => ?_)
    exact hnames n (List.mem_append_left _ hn)
  have hindex : scanner.indexAt place outer ∈ documents :=
    (Scanner.mem_scan_iff hcontents hscan).2 ⟨place, outer, hplace, Or.inl rfl⟩
  have hpage : scanner.childAt (inward ++ place) name ∈ documents :=
    (Scanner.mem_scan_iff hcontents hscan).2
      ⟨_, entries, hdirectory, Or.inr ⟨name, hfile, hne, hmarkdown, rfl⟩⟩
  refine ⟨_, hindex, _, hpage, fun heq => ?_, ?_⟩
  · have hkind : true = false := congrArg Document.isIndex heq
    cases hkind
  · rw [Scanner.identity_indexAt, Scanner.identity_childAt]
    exact ((identityOf_eq_iff hname (hplace.properNames hwellNamed) hnames).2
      ⟨inward, rfl, hway⟩).symm

end Clash

section Clash

variable {scanner : Scanner} {fs : FileSystem} {contents : Keyed Node} {documents : List Document}
  (hwellNamed : (Node.directory contents).WellNamed)

include hwellNamed

/-- The identities of a scan are different exactly if the index name leads to no page. -/
theorem nodup_identities_iff (htree : fs.tree scanner.sourceDirectory = .ok contents)
    (hscan : scanner.scan fs = .ok documents) :
    (documents.map Document.identity).Nodup ↔ ¬ IndexClash scanner contents := by
  constructor
  · intro hnodup hclash
    obtain ⟨index, hindex, page, hpage, hne, heq⟩ :=
      exists_identity_eq hwellNamed htree hscan hclash
    exact hne (List.inj_on_of_nodup_map hnodup hindex hpage heq)
  · intro hclash
    refine List.pairwise_map.2 ((pairwise_scan hwellNamed htree hscan).imp_of_mem
      fun {a b} ha hb hapart heq => ?_)
    cases hkind : a.isIndex <;> cases hother : b.isIndex
    · exact hapart (hkind.trans hother.symm) heq
    · exact hclash (indexClash_of_identity_eq hwellNamed htree hscan hb ha hother hkind heq)
    · exact hclash (indexClash_of_identity_eq hwellNamed htree hscan ha hb hkind hother heq.symm)
    · exact hapart (hkind.trans hother.symm) heq

/-- An index name that leads through directories has a slash. -/
theorem IndexClash.slash_mem (h : IndexClash scanner contents) :
    '/' ∈ scanner.indexName.toList := by
  obtain ⟨place, inward, entries, name, hdirectory, hinward, _, _, hway⟩ := h
  refine hway ▸ slash_mem_identityOf hinward fun n hn => ?_
  exact hdirectory.properNames hwellNamed n (List.mem_append_left _ hn)

end Clash

/-- The documents of a scan have different identities, unless the index name leads to a Markdown
file through directories. It never does if it has no slash. -/
theorem identities_distinct_iff {scanner : Scanner} {fs : FileSystem} {entries : Keyed Node}
    (hroot : fs.root.WellNamed)
    (hsource : fs.node scanner.sourceDirectory = .ok (.directory entries))
    (hshort : scanner.sourceDirectory.utf8ByteSize < pathLimit) :
    ∃ documents, scanner.scan fs = .ok documents
      ∧ ((documents.map Document.identity).Nodup
        ↔ ¬ ∃ contents, fs.tree scanner.sourceDirectory = .ok contents
          ∧ IndexClash scanner contents)
      ∧ ('/' ∉ scanner.indexName.toList → (documents.map Document.identity).Nodup) := by
  rcases FileSystem.tree_of_node hsource hshort with ⟨contents, htree⟩ | hdenied
  · obtain ⟨_, hwellNamed⟩ := FileSystem.wellNamed_of_tree hroot htree
    have hscan := Scanner.scan_eq_ok htree
    generalize inOrder _ = documents at hscan
    have hiff := nodup_identities_iff hwellNamed htree hscan
    refine ⟨documents, hscan, ?_, fun hslash => hiff.2 fun hclash => ?_⟩
    · simpa [htree] using hiff
    · exact hslash (hclash.slash_mem hwellNamed)
  -- there are no documents
  · exact ⟨[], Scanner.scan_of_denied hdenied, by simp [hdenied], by simp⟩

/-- A configuration that is valid, and has an index name that leads through a directory. -/
def crossedConfig : Config := { Config.standard "" with indexName := "b/a.md" }

/-- The page the index name leads to has the identity of the index of the source directory. -/
theorem identities_crossed :
    crossedConfig.validate = .ok () ∧ crossed.root.WellNamed
      ∧ ∃ documents, (scannerOf crossedConfig).scan crossed = .ok documents
        ∧ ¬ (documents.map Document.identity).Nodup := by
  have hinner : (Node.directory [("a.md", .file .empty)]).WellNamed :=
    .directory (by decide) (by decide) (by simp [Node.WellNamed.file])
  have hcontents : (Node.directory [("b", .directory [("a.md", .file .empty)])]).WellNamed :=
    .directory (by decide) (by decide) (by simp [hinner])
  have hroot : crossed.root.WellNamed :=
    .directory (List.nodup_singleton _) (by decide) (by simp [hcontents])
  have hsource : (scannerOf crossedConfig).sourceDirectory = "docs" := by decide
  have htree : crossed.tree (scannerOf crossedConfig).sourceDirectory
      = .ok [("b", .directory [("a.md", .file .empty)])] := hsource ▸ tree_docs rfl
  obtain ⟨entries, hnode⟩ := FileSystem.node_of_tree htree
  have hshort : (scannerOf crossedConfig).sourceDirectory.utf8ByteSize < pathLimit := by decide
  have hclash : IndexClash (scannerOf crossedConfig)
      [("b", .directory [("a.md", .file .empty)])] := by
    refine ⟨[], ["b"], [("a.md", .file .empty)], "a.md",
      .inside .source List.mem_cons_self (by decide) (by decide), List.cons_ne_nil _ _,
      ⟨.file .empty, List.mem_cons_self, by decide, rfl⟩, by decide, by decide⟩
  obtain ⟨documents, hscan, hiff, _⟩ := identities_distinct_iff hroot hnode hshort
  exact ⟨rfl, hroot, documents, hscan, fun hnodup => hiff.1 hnodup ⟨_, htree, hclash⟩⟩

end WikiPress.Sync
