import WikiPress.Proofs.Files.Lexical

/-!
# WikiPress.Proofs.Files.Joined

Paths that are joined to a directory, whatever they say, and the directory a path lies in.

Design points:

* A path is joined in front of its steps: those of the directory come first, and those of the
  path follow as they are (`stepsOf_join_of_relative`). Only the empty path asks for a
  directory then.
* `parent` takes the last name off together with the segments in front of it that say
  nothing. The steps that are lost with them are stays (`exists_parent`).
* The file name of a joined path is the path's own, unless the path says nothing; then it is
  that of the directory (`fileName_join_of_tells`, `fileName_join_of_silent`).
-/

namespace WikiPress.Files

open WikiPress.Text (segmentsOf joinSegments)

variable {directory name path : String}

/-! ## Segments put together -/

theorem segmentsOf_ne_nil (path : List Char) : segmentsOf path ≠ [] :=
  segmentsOf_go_ne_nil [] path

/-- Segments that are put together are found again. -/
theorem segmentsOf_joinSegments {segments : List (List Char)} (hnonempty : segments ≠ [])
    (hslash : ∀ segment ∈ segments, '/' ∉ segment) :
    segmentsOf (joinSegments segments) = segments := by
  induction segments with
  | nil => exact absurd rfl hnonempty
  | cons segment rest ih =>
      obtain ⟨hsegment, hrest⟩ := List.forall_mem_cons.1 hslash
      cases rest with
      | nil =>
          rw [joinSegments, List.intercalate_singleton]
          exact segmentsOf_of_not_mem hsegment
      | cons next rest =>
          have hjoin : joinSegments (segment :: next :: rest)
              = segment ++ '/' :: joinSegments (next :: rest) := by
            rw [joinSegments, List.intercalate_cons_of_ne_nil (List.cons_ne_nil _ _)]
            simp [joinSegments]
          rw [hjoin, segmentsOf_append, segmentsOf_of_not_mem hsegment,
            ih (List.cons_ne_nil _ _) hrest]
          rfl

/-- The last segment stands behind a slash, if others are in front of it. -/
theorem joinSegments_concat {segments : List (List Char)} (h : segments ≠ []) (last : List Char) :
    joinSegments (segments ++ [last]) = joinSegments segments ++ '/' :: last := by
  induction segments with
  | nil => exact absurd rfl h
  | cons segment rest ih =>
      cases rest with
      | nil => simp [joinSegments, List.intercalate]
      | cons next rest =>
          have hrest := ih (List.cons_ne_nil _ _)
          rw [joinSegments] at hrest ⊢
          rw [List.cons_append, List.intercalate_cons_of_ne_nil (by simp), hrest, joinSegments,
            joinSegments, List.intercalate_cons_of_ne_nil (List.cons_ne_nil _ _)]
          simp

/-- An absolute path has an empty segment in front of others. -/
theorem isAbsolute_iff_segments (path : String) :
    isAbsolute path = true ↔ ∃ segment rest, segmentsOf path.toList = [] :: segment :: rest := by
  rw [isAbsolute]
  cases hlist : path.toList with
  | nil => simp [segmentsOf, segmentsOf.go]
  | cons c rest =>
      by_cases hc : c = '/'
      · subst hc
        obtain ⟨segment, more, hmore⟩ := List.exists_cons_of_ne_nil (segmentsOf_ne_nil rest)
        have hsegments : segmentsOf ('/' :: rest) = [] :: segment :: more := by
          rw [← hmore]
          exact segmentsOf_append [] rest
        exact iff_of_true (by simp) ⟨segment, more, hsegments⟩
      · refine iff_of_false (by simpa using hc) ?_
        rintro ⟨segment, more, hsegments⟩
        have hjoin := joinSegments_segmentsOf (c :: rest)
        rw [hsegments, joinSegments,
          List.intercalate_cons_of_ne_nil (List.cons_ne_nil _ _)] at hjoin
        simp only [List.nil_append, List.singleton_append, List.cons.injEq] at hjoin
        exact hc hjoin.1.symm

/-! ## Steps of joined paths -/

/-- What is joined to a directory starts where the directory's path starts. -/
theorem startOf_join_of_relative (fs : FileSystem) (directory : String)
    (hpath : isAbsolute path = false) :
    fs.startOf (join directory path) = fs.startOf directory := by
  by_cases hdirectory : directory = ""
  · subst hdirectory
    rw [empty_join, FileSystem.startOf, FileSystem.startOf, hpath]
    rfl
  · rw [FileSystem.startOf, FileSystem.startOf, isAbsolute_join_of_relative hdirectory hpath]

/-- The steps of a relative path are taken behind those of the directory. -/
theorem stepsOf_join_of_relative (directory : String) (hpath : isAbsolute path = false)
    (hnonempty : path ≠ "") :
    stepsOf (join directory path) = plainSteps directory ++ stepsOf path := by
  by_cases hdirectory : directory = ""
  · subst hdirectory
    have hempty : plainSteps "" = [] := by decide
    rw [empty_join, hempty, List.nil_append]
  · obtain ⟨front, hjoin, -⟩ := toList_join_of_relative hdirectory hpath
    have hlast : (join directory path).toList.getLast? = path.toList.getLast? := by
      have hlist : path.toList ≠ [] := by simpa using hnonempty
      rw [hjoin, List.append_cons, List.getLast?_append_of_ne_nil _ hlist]
    show plainSteps (join directory path) ++ _ = plainSteps directory ++ (plainSteps path ++ _)
    rw [plainSteps_join_of_relative hdirectory hpath, hlast, List.append_assoc]

/-- The empty path asks for the directory to be one. -/
theorem stepsOf_join_empty (hdirectory : directory ≠ "") :
    stepsOf (join directory "") = plainSteps directory ++ [.stay] := by
  have hrelative : isAbsolute "" = false := by decide
  obtain ⟨front, hjoin, -⟩ := toList_join_of_relative hdirectory hrelative
  have hlast : (join directory "").toList.getLast? = some '/' := by simp [hjoin]
  have hempty : plainSteps "" = [] := by decide
  show plainSteps (join directory "") ++ _ = _
  rw [plainSteps_join_of_relative hdirectory hrelative, hempty, List.append_nil, if_pos hlast]

/-- Behind a slash a relative path stands as it is. -/
theorem join_of_slash (hslash : directory.toList.getLast? = some '/')
    (hpath : isAbsolute path = false) : join directory path = directory ++ path := by
  have hnonempty : directory.isEmpty = false := by
    rw [← Bool.not_eq_true, String.isEmpty_iff]
    rintro rfl
    cases hslash
  simp only [join, hpath, hnonempty, hslash, Bool.or_self, Bool.false_eq_true, if_false, BEq.rfl,
    if_true]

theorem join_of_no_slash (hdirectory : directory ≠ "")
    (hslash : directory.toList.getLast? ≠ some '/') (hpath : isAbsolute path = false) :
    join directory path = directory ++ "/" ++ path := by
  have hnonempty : directory.isEmpty = false := by simpa using hdirectory
  have hlast : (directory.toList.getLast? == some '/') = false := by simpa using hslash
  simp only [join, hpath, hnonempty, hlast, Bool.or_self, Bool.false_eq_true, if_false]

/-- A path that ends in a name has no slash at its end. -/
theorem ProperName.getLast?_append (hname : ProperName name) (front : String) :
    (front ++ name).toList.getLast? ≠ some '/' := by
  obtain ⟨start, last, hlist⟩ := (List.eq_nil_or_concat' name.toList).resolve_left hname.says.1
  rw [String.toList_append, hlist, ← List.append_assoc, List.getLast?_concat, Option.some_inj.ne]
  rintro rfl
  exact hname.slash (hlist ▸ List.mem_append_right _ List.mem_cons_self)

/-- Behind a name it does not matter what is joined first. -/
theorem join_join (directory : String) (hname : ProperName name) (path : String) :
    join (join directory name) path = join directory (join name path) := by
  cases habsolute : isAbsolute path with
  | true =>
      rw [join_of_absolute _ habsolute, join_of_absolute _ habsolute, join_of_absolute _ habsolute]
  | false =>
      have hplain : name.toList.getLast? ≠ some '/' := by simpa using hname.getLast?_append ""
      have hrelative : isAbsolute (join name path) = false := by
        rw [isAbsolute_join_of_relative hname.nonempty habsolute]
        exact hname.not_absolute
      have hinner : join name path = name ++ "/" ++ path :=
        join_of_no_slash hname.nonempty hplain habsolute
      have hnonempty : ∀ front : String, front ++ name ≠ "" := fun front => by
        simp [hname.nonempty]
      by_cases hdirectory : directory = ""
      · subst hdirectory
        rw [empty_join, empty_join]
      by_cases hslash : directory.toList.getLast? = some '/'
      · rw [join_of_slash hslash hname.not_absolute, join_of_slash hslash hrelative,
          join_of_no_slash (hnonempty _) (hname.getLast?_append _) habsolute, hinner]
        simp only [String.append_assoc]
      · rw [join_of_no_slash hdirectory hslash hname.not_absolute,
          join_of_no_slash hdirectory hslash hrelative,
          join_of_no_slash (hnonempty _) (hname.getLast?_append _) habsolute, hinner]
        simp only [String.append_assoc]

/-! ## Segments that say nothing -/

/-- Whether a segment says nothing of where to go. -/
def Silent (segment : List Char) : Prop :=
  segment = [] ∨ segment = ['.']

instance (segment : List Char) : Decidable (Silent segment) :=
  inferInstanceAs (Decidable (_ ∨ _))

theorem trimSegments_cons_of_silent {segment : List Char} {segments : List (List Char)}
    (h : Silent segment) (hmore : segments ≠ []) :
    trimSegments (segment :: segments) = trimSegments segments := by
  obtain ⟨next, rest, rfl⟩ := List.exists_cons_of_ne_nil hmore
  rw [trimSegments]
  exact if_pos h

theorem trimSegments_cons_of_not_silent {segment : List Char} (h : ¬ Silent segment)
    (segments : List (List Char)) : trimSegments (segment :: segments) = segment :: segments := by
  cases segments with
  | nil => rfl
  | cons next rest =>
      rw [trimSegments]
      exact if_neg h

theorem trimSegments_append_of_silent {silent segments : List (List Char)}
    (h : ∀ segment ∈ silent, Silent segment) (hmore : segments ≠ []) :
    trimSegments (silent ++ segments) = trimSegments segments := by
  induction silent with
  | nil => rfl
  | cons segment rest ih =>
      obtain ⟨hsegment, hrest⟩ := List.forall_mem_cons.1 h
      rw [List.cons_append, trimSegments_cons_of_silent hsegment (by simp [hmore]), ih hrest]

/-- Where a segment says something, the ones behind it do not matter. -/
theorem head?_trimSegments_append {segments : List (List Char)}
    (h : ∃ segment ∈ segments, ¬ Silent segment) (more : List (List Char)) :
    (trimSegments (segments ++ more)).head? = (trimSegments segments).head? := by
  induction segments with
  | nil => exact absurd h (by simp)
  | cons segment rest ih =>
      by_cases hsegment : Silent segment
      · have hrest : ∃ segment ∈ rest, ¬ Silent segment := by
          obtain ⟨telling, hmem, htells⟩ := h
          refine ⟨telling, (List.mem_cons.1 hmem).resolve_left ?_, htells⟩
          rintro rfl
          exact htells hsegment
        have hnonempty : rest ≠ [] := List.ne_nil_of_mem hrest.choose_spec.1
        rw [List.cons_append, trimSegments_cons_of_silent hsegment (by simp [hnonempty]),
          trimSegments_cons_of_silent hsegment hnonempty, ih hrest]
      · rw [List.cons_append, trimSegments_cons_of_not_silent hsegment,
          trimSegments_cons_of_not_silent hsegment]
        rfl

/-- Segments that say nothing are all that is trimmed. -/
theorem exists_silent_append (segments : List (List Char)) :
    ∃ silent, segments = silent ++ trimSegments segments
      ∧ ∀ segment ∈ silent, Silent segment := by
  induction segments with
  | nil => exact ⟨[], rfl, by simp⟩
  | cons segment rest ih =>
      obtain ⟨silent, hrest, hsilent⟩ := ih
      by_cases htrims : Silent segment ∧ rest ≠ []
      · refine ⟨segment :: silent, ?_, List.forall_mem_cons.2 ⟨htrims.1, hsilent⟩⟩
        rw [trimSegments_cons_of_silent htrims.1 htrims.2, List.cons_append, ← hrest]
      · refine ⟨[], ?_, by simp⟩
        by_cases hsegment : Silent segment
        · obtain rfl : rest = [] := by_contra fun hmore => htrims ⟨hsegment, hmore⟩
          rfl
        · rw [trimSegments_cons_of_not_silent hsegment, List.nil_append]

theorem trimSegments_ne_nil {segments : List (List Char)} (h : segments ≠ []) :
    trimSegments segments ≠ [] := by
  obtain ⟨segment, rest, rfl⟩ := List.exists_cons_of_ne_nil h
  induction rest generalizing segment with
  | nil => exact h
  | cons next rest ih =>
      by_cases hsegment : Silent segment
      · rw [trimSegments_cons_of_silent hsegment (List.cons_ne_nil _ _)]
        exact ih next (List.cons_ne_nil _ _)
      · rw [trimSegments_cons_of_not_silent hsegment]
        exact h

/-! ## File names of joined paths -/

/-- Whether a path says where to go. -/
def Tells (path : String) : Prop :=
  ∃ segment ∈ segmentsOf path.toList, ¬ Silent segment

instance (path : String) : Decidable (Tells path) :=
  inferInstanceAs (Decidable (∃ segment ∈ segmentsOf path.toList, ¬ Silent segment))

/-- The file name is told by the last segment that says something. -/
theorem fileName_congr {other : String}
    (h : (reversedSegments path).head? = (reversedSegments other).head?) :
    fileName path = fileName other := by
  unfold fileName
  cases hpath : reversedSegments path <;> cases hother : reversedSegments other <;>
    simp_all

theorem reversedSegments_join (hdirectory : directory ≠ "") (hpath : isAbsolute path = false) :
    ∃ front, reversedSegments (join directory path)
        = trimSegments ((segmentsOf path.toList).reverse ++ (segmentsOf front).reverse)
      ∧ reversedSegments directory = trimSegments (segmentsOf front).reverse := by
  obtain ⟨front, hjoin, hfront⟩ := toList_join_of_relative hdirectory hpath
  refine ⟨front, ?_, ?_⟩
  · rw [reversedSegments, hjoin, segmentsOf_append, List.reverse_append]
  · rw [reversedSegments]
    rcases hfront with hfront | hfront
    · rw [hfront]
    · have hempty : segmentsOf [] = [[]] := rfl
      rw [hfront, segmentsOf_append, hempty, List.reverse_append, List.reverse_singleton,
        List.singleton_append, trimSegments_cons_of_silent (Or.inl rfl)
          (List.reverse_ne_nil_iff.2 (segmentsOf_ne_nil front))]

/-- A path that says something keeps its file name. -/
theorem fileName_join_of_tells (directory : String) (h : Tells path) :
    fileName (join directory path) = fileName path := by
  by_cases hown : isAbsolute path = true ∨ directory = ""
  · have hjoin : join directory path = path := by
      rcases hown with habsolute | rfl
      · exact join_of_absolute directory habsolute
      · exact empty_join path
    rw [hjoin]
  · obtain ⟨hrelative, hdirectory⟩ := not_or.1 hown
    obtain ⟨front, hjoin, -⟩ :=
      reversedSegments_join hdirectory (Bool.not_eq_true _ ▸ hrelative)
    obtain ⟨segment, hmem, htells⟩ := h
    refine fileName_congr ?_
    rw [hjoin, head?_trimSegments_append ⟨segment, List.mem_reverse.2 hmem, htells⟩]
    rfl

theorem fileName_of_silent (h : ¬ Tells path) : fileName path = none := by
  unfold fileName
  split
  · rfl
  · next segment rest hsegments =>
      have htrimmed : trimSegments (segmentsOf path.toList).reverse = segment :: rest := hsegments
      have hmem : segment ∈ segmentsOf path.toList :=
        List.mem_reverse.1 (mem_of_mem_trimSegments (htrimmed ▸ List.mem_cons_self))
      have hsilent : Silent segment := by_contra fun htells => h ⟨segment, hmem, htells⟩
      rw [if_pos (or_assoc.1 (Or.inl hsilent))]

/-- A path that says nothing leaves the file name to the directory. -/
theorem fileName_join_of_silent (directory : String) (hpath : isAbsolute path = false)
    (h : ¬ Tells path) : fileName (join directory path) = fileName directory := by
  by_cases hdirectory : directory = ""
  · subst hdirectory
    have hempty : ¬ Tells "" := by decide
    rw [empty_join, fileName_of_silent h, fileName_of_silent hempty]
  · obtain ⟨front, hjoin, hfront⟩ := reversedSegments_join hdirectory hpath
    refine fileName_congr ?_
    have hsilent : ∀ segment ∈ (segmentsOf path.toList).reverse, Silent segment :=
      fun segment hmem => by_contra fun htells => h ⟨segment, List.mem_reverse.1 hmem, htells⟩
    rw [hjoin, hfront, trimSegments_append_of_silent hsilent
      (List.reverse_ne_nil_iff.2 (segmentsOf_ne_nil front))]

/-! ## The directory a path lies in -/

/-- The path of trimmed segments has their steps. -/
theorem plainSteps_ofReversedSegments {segments : List (List Char)} (hnonempty : segments ≠ [])
    (hslash : ∀ segment ∈ segments, '/' ∉ segment) :
    plainSteps (ofReversedSegments segments) = segments.reverse.filterMap stepOf := by
  by_cases hroot : segments = [[]]
  · subst hroot
    decide
  · rw [ofReversedSegments, if_neg hroot, plainSteps, String.toList_ofList,
      segmentsOf_joinSegments (List.reverse_ne_nil_iff.2 hnonempty)
        (fun segment hmem => hslash segment (List.mem_reverse.1 hmem))]

/-- The path of the first segments of another one is absolute if the other one is. -/
theorem isAbsolute_ofReversedSegments {segments : List (List Char)} (hnonempty : segments ≠ [])
    (hslash : ∀ segment ∈ segments, '/' ∉ segment) (more : List (List Char)) (hmore : more ≠ [])
    (hpath : segmentsOf path.toList = segments.reverse ++ more) :
    isAbsolute (ofReversedSegments segments) = isAbsolute path := by
  rw [Bool.eq_iff_iff, isAbsolute_iff_segments path, hpath]
  by_cases hroot : segments = [[]]
  · subst hroot
    obtain ⟨next, rest, rfl⟩ := List.exists_cons_of_ne_nil hmore
    exact iff_of_true rfl ⟨next, rest, rfl⟩
  · rw [isAbsolute_iff_segments, ofReversedSegments, if_neg hroot, String.toList_ofList,
      segmentsOf_joinSegments (List.reverse_ne_nil_iff.2 hnonempty)
        (fun segment hmem => hslash segment (List.mem_reverse.1 hmem))]
    cases hsegments : segments.reverse with
    | nil => exact absurd (List.reverse_eq_nil_iff.1 hsegments) hnonempty
    | cons first others =>
        cases others with
        | nil =>
            -- a single segment is that of the root if it is empty
            have hfirst : first ≠ [] := by
              rintro rfl
              exact hroot (by simpa using congrArg List.reverse hsegments)
            simp [hfirst]
        | cons next others => simp

/-- Without a slash at its end a path ends in a segment. -/
theorem last_segment_ne_nil {outer : List (List Char)} {last : List Char}
    (hsegments : segmentsOf path.toList = outer ++ [last])
    (hplain : path.toList.getLast? ≠ some '/') (hpath : path ≠ "") : last ≠ [] := by
  rintro rfl
  have hjoin := joinSegments_segmentsOf path.toList
  rw [hsegments] at hjoin
  by_cases houter : outer = []
  · subst houter
    exact hpath (by simpa [joinSegments] using hjoin.symm)
  · rw [joinSegments_concat houter] at hjoin
    exact hplain (by rw [← hjoin, List.getLast?_concat])

theorem exists_stepOf {segment : List Char} (h : segment ≠ []) :
    ∃ step, stepOf segment = some step := by
  rw [stepOf, if_neg h]
  split
  · exact ⟨_, rfl⟩
  · split <;> exact ⟨_, rfl⟩

/-- A path has steps, unless it is empty. -/
theorem stepsOf_ne_nil (h : path ≠ "") : stepsOf path ≠ [] := by
  intro hsteps
  obtain ⟨hplain, hslash⟩ := List.append_eq_nil_iff.1 hsteps
  obtain ⟨outer, last, hsegments⟩ :=
    (List.eq_nil_or_concat' (segmentsOf path.toList)).resolve_left (segmentsOf_ne_nil _)
  have hlast := last_segment_ne_nil hsegments (fun hends => by simp [hends] at hslash) h
  obtain ⟨step, hstep⟩ := exists_stepOf hlast
  rw [hsegments, List.filterMap_append] at hplain
  simp [hstep] at hplain

/-- A segment that leads into a name is the name, which is proper. -/
theorem properName_of_stepOf {segment : List Char} (h : stepOf segment = some (.into name))
    (hslash : '/' ∉ segment) : segment = name.toList ∧ ProperName name := by
  unfold stepOf at h
  split at h
  · cases h
  next hempty =>
  split at h
  · cases h
  next hdot =>
  split at h
  · cases h
  next hup =>
  cases h
  exact ⟨by simp, properName_ofList hempty hdot hup hslash⟩

/-- A path whose last step is into a name has the name for its last segment. -/
theorem segmentsOf_of_into {front : List Step} (h : stepsOf path = front ++ [.into name]) :
    ∃ outer, segmentsOf path.toList = outer ++ [name.toList] ∧ ProperName name
      ∧ outer.filterMap stepOf = front := by
  have hpath : path ≠ "" := by
    rintro rfl
    have hnone : stepsOf "" = [] := by decide
    rw [hnone] at h
    simp at h
  obtain ⟨outer, last, hsegments⟩ :=
    (List.eq_nil_or_concat' (segmentsOf path.toList)).resolve_left (segmentsOf_ne_nil _)
  have hsteps : stepsOf path = outer.filterMap stepOf ++ (stepOf last).toList
      ++ if path.toList.getLast? = some '/' then [.stay] else [] := by
    rw [stepsOf, hsegments, List.filterMap_append]
    cases hlast : stepOf last <;> simp [hlast]
  have hplain : path.toList.getLast? ≠ some '/' := by
    intro hslash
    rw [hsteps, if_pos hslash] at h
    cases (List.append_inj' h rfl).2
  obtain ⟨step, hstep⟩ := exists_stepOf (last_segment_ne_nil hsegments hplain hpath)
  rw [hsteps, if_neg hplain, List.append_nil, hstep] at h
  obtain ⟨hfront, hlast⟩ := List.append_inj' h rfl
  cases hlast
  obtain ⟨rfl, hname⟩ := properName_of_stepOf hstep
    (slash_not_mem_of_mem_segmentsOf (hsegments ▸ List.mem_append_right _ List.mem_cons_self))
  exact ⟨outer, hsegments, hname, hfront⟩

/-- A path that ends in a name lies in the directory that the steps in front of it lead to. -/
theorem exists_parent {front : List Step} (h : stepsOf path = front ++ [.into name]) :
    ∃ directory stays, parent path = some directory
      ∧ isAbsolute directory = isAbsolute path
      ∧ front = plainSteps directory ++ stays ∧ ∀ step ∈ stays, step = .stay := by
  obtain ⟨outer, hsegments, hname, hfront⟩ := segmentsOf_of_into h
  obtain ⟨hempty, hdot, -⟩ := hname.says
  have htells : ¬ Silent name.toList := not_or.2 ⟨hempty, hdot⟩
  have hreversed : reversedSegments path = name.toList :: outer.reverse := by
    rw [reversedSegments, hsegments, List.reverse_append, List.reverse_singleton,
      List.singleton_append, trimSegments_cons_of_not_silent htells]
  have hslash : ∀ segment ∈ outer, '/' ∉ segment := fun segment hmem =>
    slash_not_mem_of_mem_segmentsOf (hsegments ▸ List.mem_append_left _ hmem)
  obtain ⟨c, rest, hcons⟩ := List.exists_cons_of_ne_nil hempty
  by_cases houter : outer = []
  · subst houter
    have hrelative : ¬ isAbsolute path = true := by
      rw [isAbsolute_iff_segments, hsegments]
      simp
    refine ⟨"", [], ?_, ?_, ?_, by simp⟩
    · rw [parent, hreversed, hcons]
      rfl
    · simpa [isAbsolute] using hrelative
    · rw [← hfront]
      decide
  · obtain ⟨silent, houtside, hsilent⟩ := exists_silent_append outer.reverse
    have hreverse : outer.reverse ≠ [] := List.reverse_ne_nil_iff.2 houter
    have hnonempty := trimSegments_ne_nil hreverse
    refine ⟨ofReversedSegments (trimSegments outer.reverse), silent.reverse.filterMap stepOf,
      ?_, ?_, ?_, ?_⟩
    · obtain ⟨next, more, hmore⟩ := List.exists_cons_of_ne_nil hreverse
      rw [parent, hreversed, hcons, hmore]
    · exact isAbsolute_ofReversedSegments hnonempty (fun segment hmem =>
          hslash segment (List.mem_reverse.1 (mem_of_mem_trimSegments hmem)))
        (silent.reverse ++ [name.toList]) (by simp) (by
          rw [hsegments, ← List.append_assoc, ← List.reverse_append, ← houtside,
            List.reverse_reverse])
    · rw [plainSteps_ofReversedSegments hnonempty (fun segment hmem =>
          hslash segment (List.mem_reverse.1 (mem_of_mem_trimSegments hmem))),
        ← List.filterMap_append, ← List.reverse_append, ← houtside, List.reverse_reverse, hfront]
    · intro step hstep
      obtain ⟨segment, hmem, hsegment⟩ := List.mem_filterMap.1 hstep
      rcases hsilent segment (List.mem_reverse.1 hmem) with rfl | rfl
      · cases hsegment
      · exact (Option.some.inj hsegment).symm

end WikiPress.Files
