import WikiPress.Proofs.Files.Walk
import WikiPress.Proofs.Keyed

/-!
# WikiPress.Proofs.Files.Lexical

What a path says by its segments alone.

Design points:

* A path names a place without a look at the tree: `..` takes back one name, whatever the
  name is of.
* Names of files are proper: they are one segment each, and none that says nothing or leads
  up. For those a path that was joined is taken apart again (`placeOf_join`, `fileName_join`).
-/

namespace WikiPress.Files

open WikiPress.Text (segmentsOf joinSegments)

/-! ## Segments -/

theorem segmentsOf_go_append (segment first second : List Char) :
    segmentsOf.go segment (first ++ '/' :: second)
      = segmentsOf.go segment first ++ segmentsOf second := by
  induction first generalizing segment with
  | nil => simp [segmentsOf.go, segmentsOf]
  | cons c rest ih =>
      rw [List.cons_append, segmentsOf.go, segmentsOf.go]
      split
      · rw [ih, List.cons_append]
      · exact ih (c :: segment)

/-- A slash parts the segments in front of it from those behind. -/
theorem segmentsOf_append (first second : List Char) :
    segmentsOf (first ++ '/' :: second) = segmentsOf first ++ segmentsOf second :=
  segmentsOf_go_append [] first second

theorem segmentsOf_go_of_not_mem {segment name : List Char} (h : '/' ∉ name) :
    segmentsOf.go segment name = [segment.reverse ++ name] := by
  induction name generalizing segment with
  | nil => simp [segmentsOf.go]
  | cons c rest ih =>
      obtain ⟨hc, hrest⟩ := not_or.1 (mt List.mem_cons.2 h)
      rw [segmentsOf.go, if_neg (Ne.symm hc), ih hrest]
      simp

/-- Without a slash there is one segment. -/
theorem segmentsOf_of_not_mem {name : List Char} (h : '/' ∉ name) : segmentsOf name = [name] :=
  segmentsOf_go_of_not_mem h

theorem segmentsOf_go_ne_nil (segment path : List Char) : segmentsOf.go segment path ≠ [] := by
  induction path generalizing segment with
  | nil => simp [segmentsOf.go]
  | cons c rest ih =>
      rw [segmentsOf.go]
      split
      · simp
      · exact ih _

theorem joinSegments_segmentsOf_go (segment path : List Char) :
    joinSegments (segmentsOf.go segment path) = segment.reverse ++ path := by
  induction path generalizing segment with
  | nil => simp [segmentsOf.go, joinSegments]
  | cons c rest ih =>
      rw [segmentsOf.go]
      split
      · next hc =>
          subst hc
          have hrest := ih []
          rw [joinSegments] at hrest ⊢
          rw [List.intercalate_cons_of_ne_nil (segmentsOf_go_ne_nil _ _), hrest]
          simp
      · rw [ih]
        simp

/-- The segments of a path, with the slashes between them again. -/
theorem joinSegments_segmentsOf (path : List Char) : joinSegments (segmentsOf path) = path :=
  joinSegments_segmentsOf_go [] path

/-- No segment has a slash. -/
theorem slash_not_mem_of_mem_segmentsOf {path segment : List Char} (h : segment ∈ segmentsOf path) :
    '/' ∉ segment := by
  have hgo : ∀ {started : List Char}, '/' ∉ started → segment ∈ segmentsOf.go started path →
      '/' ∉ segment := by
    clear h
    induction path with
    | nil =>
        intro started hstarted hmem
        rw [segmentsOf.go, List.mem_singleton] at hmem
        rw [hmem, List.mem_reverse]
        exact hstarted
    | cons c rest ih =>
        intro started hstarted hmem
        rw [segmentsOf.go] at hmem
        split at hmem
        · rcases List.mem_cons.1 hmem with rfl | hrest
          · rw [List.mem_reverse]
            exact hstarted
          · exact ih List.not_mem_nil hrest
        · next hc =>
            refine ih (fun hslash => ?_) hmem
            rcases List.mem_cons.1 hslash with heq | hin
            · exact hc heq.symm
            · exact hstarted hin
  exact hgo List.not_mem_nil h

/-! ## Places by segments -/

/-- Where a step leads from a place, whatever is there. -/
def stepFrom (place : Place) : Step → Place
  | .stay => place
  | .up => place.tail
  | .into name => name :: place

/-- The steps of a path, whether or not it ends in a slash. -/
def plainSteps (path : String) : List Step :=
  (segmentsOf path.toList).filterMap stepOf

/-- Where a path leads from a place by its segments alone. -/
def lexically (place : Place) (path : List Char) : Place :=
  ((segmentsOf path).filterMap stepOf).foldl stepFrom place

/-- The place a path names. -/
def FileSystem.placeOf (fs : FileSystem) (path : String) : Place :=
  lexically (fs.startOf path) path.toList

/-- A walk only goes into names that are short enough. -/
theorem Leads.short {root : Node} {links left : Nat} {place last : Place} {steps : List Step}
    (h : Leads root links place steps last left) {name : String} (hname : .into name ∈ steps) :
    ¬ nameLimit < name.utf8ByteSize := by
  induction h with
  | arrived => exact absurd hname List.not_mem_nil
  | stay _ _ ih | up _ _ _ ih => exact ih ((List.mem_cons.1 hname).resolve_left (by simp))
  | into _ hshort _ _ _ ih =>
      rcases List.mem_cons.1 hname with heq | hrest
      · cases heq
        exact hshort
      · exact ih hrest
  | link _ hshort _ _ ih =>
      rcases List.mem_cons.1 hname with heq | hrest
      · cases heq
        exact hshort
      · exact ih (List.mem_append_right _ hrest)

/-! ## Names -/

/-- Whether a text can be the name of a file. -/
structure ProperName (name : String) : Prop where
  nonempty : name ≠ ""
  slash : '/' ∉ name.toList
  dot : name ≠ "."
  up : name ≠ ".."

instance (name : String) : Decidable (ProperName name) :=
  decidable_of_iff (name ≠ "" ∧ '/' ∉ name.toList ∧ name ≠ "." ∧ name ≠ "..")
    ⟨fun ⟨h, hslash, hdot, hup⟩ => ⟨h, hslash, hdot, hup⟩,
      fun h => ⟨h.nonempty, h.slash, h.dot, h.up⟩⟩

/-- A tree in which every name is proper and is given once to a directory's entries. The
entries may be listed in any order. -/
inductive Node.WellNamed : Node → Prop
  | file (content : ByteArray) : WellNamed (.file content)
  | link (target : String) : WellNamed (.link target)
  | directory {entries : List (String × Node)} :
      (entries.map Prod.fst).Nodup → (∀ entry ∈ entries, ProperName entry.1) →
      (∀ entry ∈ entries, WellNamed entry.2) → WellNamed (.directory entries)

theorem Node.WellNamed.nodup {entries : List (String × Node)}
    (h : (Node.directory entries).WellNamed) : (entries.map Prod.fst).Nodup := by
  cases h with
  | directory hdistinct _ _ => exact hdistinct

/-- What is in a well-named tree is well-named. -/
theorem Node.WellNamed.at? {names : List String} {node found : Node} (h : node.WellNamed)
    (hfound : Node.at? names node = some found) : found.WellNamed := by
  induction names generalizing node with
  | nil => exact Option.some.inj hfound ▸ h
  | cons name rest ih =>
      cases h with
      | directory _ _ hinner =>
          obtain ⟨inner, hfind, hrest⟩ := Option.bind_eq_some_iff.1 hfound
          exact ih (hinner _ (Keyed.mem_of_find? hfind)) hrest
      | file _ | link _ => cases hfound

/-- What a path leads to in a well-named tree is well-named. -/
theorem FileSystem.wellNamed_of_node {fs : FileSystem} {path : String} {node : Node}
    (h : fs.root.WellNamed) (hnode : fs.node path = .ok node) :
    Usable path ∧ node.WellNamed := by
  unfold FileSystem.node FileSystem.find at hnode
  split at hnode
  · next place found hfind =>
      cases hnode
      obtain ⟨husable, _, hfound⟩ := walkFrom_eq_ok_iff.1 hfind
      exact ⟨husable, h.at? hfound⟩
  · cases hnode
  · cases hnode

section Join

variable {directory name path : String}

/-- The segment of a proper name says where to go. -/
theorem ProperName.says (h : ProperName name) :
    name.toList ≠ [] ∧ name.toList ≠ ['.'] ∧ name.toList ≠ ['.', '.'] := by
  have hne : ∀ text : String, name ≠ text → name.toList ≠ text.toList := by
    intro text hname htext
    exact hname (String.toList_inj.1 htext)
  exact ⟨hne "" h.nonempty, hne "." h.dot, hne ".." h.up⟩

theorem ProperName.stepOf (h : ProperName name) : stepOf name.toList = some (.into name) := by
  obtain ⟨hempty, hdot, hup⟩ := h.says
  rw [Files.stepOf, if_neg hempty, if_neg hdot, if_neg hup, String.ofList_toList]

theorem ProperName.not_absolute (h : ProperName name) : isAbsolute name = false := by
  cases hlist : name.toList with
  | nil => simp [isAbsolute, hlist]
  | cons c rest =>
      have hc : c ≠ '/' := by
        rintro rfl
        exact h.slash (hlist ▸ List.mem_cons_self)
      simp [isAbsolute, hlist, hc]

/-- Seen from nowhere a path is what it is. -/
@[simp] theorem empty_join (path : String) : join "" path = path := by simp [join]

/-- An absolute path is the same seen from anywhere. -/
theorem join_of_absolute (directory : String) (h : isAbsolute path = true) :
    join directory path = path := by simp [join, h]

/-- All relative paths have the same in front of them when they are seen from a directory. -/
theorem exists_join_eq_append (directory : String) :
    ∃ front, ∀ path, isAbsolute path = false → join directory path = front ++ path := by
  by_cases hempty : directory.isEmpty
  · exact ⟨"", fun path hpath => by simp [join, hpath, hempty]⟩
  · by_cases hlast : directory.toList.getLast? = some '/'
    · exact ⟨directory, fun path hpath => by simp [join, hpath, hempty, hlast]⟩
    · exact ⟨directory ++ "/", fun path hpath => by simp [join, hpath, hempty, hlast]⟩

/-- Directories from which one relative path is the same are no different for any path. -/
theorem join_eq_of_join_eq {other : String} (hname : isAbsolute name = false)
    (h : join directory name = join other name) (path : String) :
    join directory path = join other path := by
  obtain ⟨front, hfront⟩ := exists_join_eq_append directory
  obtain ⟨before, hbefore⟩ := exists_join_eq_append other
  rw [hfront name hname, hbefore name hname] at h
  obtain rfl : front = before := by simpa using h
  by_cases hpath : isAbsolute path = true
  · rw [join_of_absolute directory hpath, join_of_absolute other hpath]
  · rw [Bool.not_eq_true] at hpath
    rw [hfront path hpath, hbefore path hpath]

/-- A relative path is joined to a directory behind one slash. -/
theorem toList_join_of_relative (hdirectory : directory ≠ "") (hpath : isAbsolute path = false) :
    ∃ front, (join directory path).toList = front ++ '/' :: path.toList
      ∧ (directory.toList = front ∨ directory.toList = front ++ ['/']) := by
  have hempty : directory.isEmpty = false := by simpa using hdirectory
  unfold join
  rw [hpath, hempty, Bool.or_false, if_neg Bool.false_ne_true]
  split
  · next hlast =>
      rw [beq_iff_eq, List.getLast?_eq_some_iff] at hlast
      obtain ⟨front, hfront⟩ := hlast
      exact ⟨front, by simp [hfront], Or.inr hfront⟩
  · exact ⟨directory.toList, by simp, Or.inl rfl⟩

/-- A name is joined to a directory behind one slash. -/
theorem toList_join (hdirectory : directory ≠ "") (hname : ProperName name) :
    ∃ front, (join directory name).toList = front ++ '/' :: name.toList
      ∧ (directory.toList = front ∨ directory.toList = front ++ ['/']) :=
  toList_join_of_relative hdirectory hname.not_absolute

theorem isAbsolute_join_of_relative (hdirectory : directory ≠ "")
    (hpath : isAbsolute path = false) :
    isAbsolute (join directory path) = isAbsolute directory := by
  obtain ⟨front, hjoin, hfront⟩ := toList_join_of_relative hdirectory hpath
  have hnonempty : directory.toList ≠ [] := by simpa using hdirectory
  rw [isAbsolute, isAbsolute, hjoin]
  rcases hfront with hfront | hfront
  · cases front with
    | nil => exact absurd hfront hnonempty
    | cons c rest => simp [hfront]
  · cases front <;> simp [hfront]

theorem isAbsolute_join (hdirectory : directory ≠ "") (hname : ProperName name) :
    isAbsolute (join directory name) = isAbsolute directory :=
  isAbsolute_join_of_relative hdirectory hname.not_absolute

/-- What is joined to a directory starts where the directory's path starts. -/
theorem startOf_join (fs : FileSystem) (hdirectory : directory ≠ "") (hname : ProperName name) :
    fs.startOf (join directory name) = fs.startOf directory := by
  rw [FileSystem.startOf, FileSystem.startOf, isAbsolute_join hdirectory hname]

/-- The steps of a relative path are taken behind those of the directory. -/
theorem plainSteps_join_of_relative (hdirectory : directory ≠ "")
    (hpath : isAbsolute path = false) :
    plainSteps (join directory path) = plainSteps directory ++ plainSteps path := by
  obtain ⟨front, hjoin, hfront⟩ := toList_join_of_relative hdirectory hpath
  -- a slash at the end of the directory stands for no step
  have hsteps : plainSteps directory = (segmentsOf front).filterMap Files.stepOf := by
    rw [plainSteps]
    rcases hfront with hfront | hfront
    · rw [hfront]
    · rw [hfront, segmentsOf_append, List.filterMap_append]
      simp [segmentsOf, segmentsOf.go, Files.stepOf]
  rw [hsteps, plainSteps, hjoin, segmentsOf_append, List.filterMap_append, plainSteps]

/-- What is joined to a directory is one step behind it. -/
theorem plainSteps_join (hdirectory : directory ≠ "") (hname : ProperName name) :
    plainSteps (join directory name) = plainSteps directory ++ [.into name] := by
  have hsteps : plainSteps name = [.into name] := by
    rw [plainSteps, segmentsOf_of_not_mem hname.slash]
    simp [hname.stepOf]
  rw [plainSteps_join_of_relative hdirectory hname.not_absolute, hsteps]

/-- What is joined to a directory is named behind it. -/
theorem placeOf_join (fs : FileSystem) (hdirectory : directory ≠ "") (hname : ProperName name) :
    fs.placeOf (join directory name) = name :: fs.placeOf directory := by
  show (plainSteps (join directory name)).foldl stepFrom (fs.startOf (join directory name)) = _
  rw [plainSteps_join hdirectory hname, startOf_join fs hdirectory hname, List.foldl_append]
  rfl

/-- Also what is joined to nothing. -/
theorem placeOf_joined (fs : FileSystem) (directory : String) (hname : ProperName name) :
    fs.placeOf (join directory name) = name :: fs.placeOf directory := by
  by_cases hdirectory : directory = ""
  · subst hdirectory
    have hsteps : (segmentsOf name.toList).filterMap Files.stepOf = [.into name] := by
      rw [segmentsOf_of_not_mem hname.slash]
      simp [hname.stepOf]
    have hempty : (segmentsOf "".toList).filterMap Files.stepOf = [] := by decide
    rw [empty_join, FileSystem.placeOf, FileSystem.placeOf, lexically, lexically, hsteps, hempty,
      FileSystem.startOf, FileSystem.startOf, hname.not_absolute]
    rfl
  · exact placeOf_join fs hdirectory hname

theorem mem_of_mem_trimSegments {segments : List (List Char)} {segment : List Char}
    (h : segment ∈ trimSegments segments) : segment ∈ segments := by
  induction segments with
  | nil => exact h
  | cons first rest ih =>
      cases rest with
      | nil => exact h
      | cons second rest =>
          rw [trimSegments] at h
          split at h
          · exact List.mem_cons_of_mem _ (ih h)
          · exact h

/-- A segment that says where to go, but not up, can be the name of a file. -/
theorem properName_ofList {segment : List Char} (hempty : segment ≠ []) (hdot : segment ≠ ['.'])
    (hup : segment ≠ ['.', '.']) (hslash : '/' ∉ segment) :
    ProperName (String.ofList segment) := by
  have htext : ∀ text : String, segment ≠ text.toList → String.ofList segment ≠ text := by
    rintro _ hne rfl
    exact hne (by simp)
  exact ⟨htext "" hempty, by simpa using hslash, htext "." hdot, htext ".." hup⟩

/-- What a path ends in can be the name of a file. -/
theorem properName_of_fileName {path : String} (h : fileName path = some name) :
    ProperName name := by
  unfold fileName at h
  split at h
  · cases h
  · next segment rest hsegments =>
      split at h
      · cases h
      · next hnonempty =>
          obtain ⟨hempty, hdot, hup⟩ : segment ≠ [] ∧ segment ≠ ['.'] ∧ segment ≠ ['.', '.'] := by
            simpa [not_or] using hnonempty
          cases h
          have htrimmed : trimSegments (segmentsOf path.toList).reverse = segment :: rest :=
            hsegments
          have hmem : segment ∈ segmentsOf path.toList :=
            List.mem_reverse.1 (mem_of_mem_trimSegments (htrimmed ▸ List.mem_cons_self))
          exact properName_ofList hempty hdot hup (slash_not_mem_of_mem_segmentsOf hmem)

/-- A path that ends in a proper name has it for its file name. -/
theorem fileName_join (hdirectory : directory ≠ "") (hname : ProperName name) :
    fileName (join directory name) = some name := by
  obtain ⟨front, hjoin, _⟩ := toList_join hdirectory hname
  obtain ⟨hempty, hdot, hup⟩ := hname.says
  have hsegments : (segmentsOf (join directory name).toList).reverse
      = name.toList :: (segmentsOf front).reverse := by
    rw [hjoin, segmentsOf_append, segmentsOf_of_not_mem hname.slash]
    simp
  have htrim : reversedSegments (join directory name)
      = name.toList :: (segmentsOf front).reverse := by
    rw [reversedSegments, hsegments]
    cases (segmentsOf front).reverse with
    | nil => rfl
    | cons segment rest => simp [trimSegments, hempty, hdot]
  rw [fileName, htrim]
  simp [hempty, hdot, hup]

/-- A proper name is its own file name. -/
theorem ProperName.fileName (hname : ProperName name) : Files.fileName name = some name := by
  obtain ⟨hempty, hdot, hup⟩ := hname.says
  have hsegments : reversedSegments name = [name.toList] := by
    rw [reversedSegments, segmentsOf_of_not_mem hname.slash]
    rfl
  rw [Files.fileName, hsegments]
  simp [hempty, hdot, hup]

/-- The last segment of a path is one that says something. -/
def EndsPlainly (path : String) : Prop :=
  ∃ front last, segmentsOf path.toList = front ++ [last] ∧ last ≠ [] ∧ last ≠ ['.']

theorem EndsPlainly.ne_empty (h : EndsPlainly directory) : directory ≠ "" := by
  rintro rfl
  obtain ⟨outer, last, hsegments, hempty, -⟩ := h
  have hlast := congrArg List.getLast? hsegments
  rw [List.getLast?_concat] at hlast
  exact hempty (Option.some.inj hlast).symm

theorem EndsPlainly.no_slash (h : EndsPlainly directory) (front : List Char) :
    directory.toList ≠ front ++ ['/'] := by
  intro hslash
  obtain ⟨outer, last, hsegments, hempty, -⟩ := h
  rw [hslash, segmentsOf_append] at hsegments
  have hlast := congrArg List.getLast? hsegments
  rw [List.getLast?_concat] at hlast
  exact hempty (by simpa [segmentsOf, segmentsOf.go] using hlast.symm)

/-- What is joined to a path that ends plainly lies in the directory of that path. -/
theorem ancestors_join (hdirectory : EndsPlainly directory) (hname : ProperName name) :
    ancestors (join directory name) = join directory name :: ancestors directory := by
  obtain ⟨front, hjoin, hfront⟩ := toList_join hdirectory.ne_empty hname
  have htext : directory.toList = front := hfront.resolve_right (hdirectory.no_slash front)
  obtain ⟨outer, last, hsegments, hempty, hdot⟩ := hdirectory
  obtain ⟨hnonempty, hnamedot, -⟩ := hname.says
  have hall : segmentsOf (join directory name).toList
      = segmentsOf directory.toList ++ [name.toList] := by
    rw [hjoin, segmentsOf_append, segmentsOf_of_not_mem hname.slash, htext]
  have hparent : parent (join directory name) = some directory := by
    have htrim : reversedSegments (join directory name)
        = name.toList :: last :: outer.reverse := by
      rw [reversedSegments, hall, hsegments]
      simp [trimSegments, hnonempty, hnamedot]
    have hstays : trimSegments (last :: outer.reverse) = last :: outer.reverse := by
      cases outer.reverse with
      | nil => rfl
      | cons segment rest => simp [trimSegments, hempty, hdot]
    have hback : ofReversedSegments (last :: outer.reverse) = directory := by
      have hreverse : (last :: outer.reverse).reverse = segmentsOf directory.toList := by
        rw [hsegments]
        simp
      rw [ofReversedSegments, if_neg (by simp [hempty]), hreverse, joinSegments_segmentsOf]
      simp
    obtain ⟨c, rest, hcons⟩ := List.exists_cons_of_ne_nil hnonempty
    rw [parent, htrim, hcons]
    show some (ofReversedSegments (trimSegments (last :: outer.reverse))) = _
    rw [hstays, hback]
  have hfuel : (segmentsOf (join directory name).toList).length
      = (segmentsOf directory.toList).length + 1 := by
    rw [hall, List.length_append]
    rfl
  have hjoined : join directory name ≠ "" := by
    intro heq
    rw [heq] at hjoin
    simp at hjoin
  rw [ancestors, hfuel, ancestors.go, if_neg (by simpa using hjoined), hparent]
  rfl

theorem join_ne_empty (hdirectory : directory ≠ "") (hname : ProperName name) :
    join directory name ≠ "" := by
  intro hempty
  have hnone : fileName "" = none := by decide
  rw [← hempty, fileName_join hdirectory hname] at hnone
  cases hnone

end Join

end WikiPress.Files
