import Mathlib.Data.List.TakeWhile
import WikiPress.Proofs.Attachment
import WikiPress.Proofs.Files.Joined

/-!
# WikiPress.Proofs.Attachment.NormalForm

The directory of a destination is the one normal form of what is written in front of its last
slash.

Design points:

* What segments mean is said by walking them from a place, one by one (`walkAlong`). A walk has
  no end if it leads up from the top, so nothing hangs on what is above it.
* The cleaned segments are held in reverse as a stack, and pushing a segment leads where the
  segment leads behind the stack (`walkAlong_pushSegment`). From every place the cleaned
  segments therefore lead where the written ones do, or neither leads anywhere.
* Two normal forms that lead alike from all places that are deep enough are the same
  (`eq_of_leadsAlike`): from places with different names they could only end alike by the same
  names and by going up equally far.
-/

namespace WikiPress.Attachment

open WikiPress.Files (Place segmentsOf_append segmentsOf_of_not_mem segmentsOf_joinSegments
  slash_not_mem_of_mem_segmentsOf)
open WikiPress.Text (segmentsOf joinSegments)

/-! ## Walking segments -/

/-- The place a segment leads to. Nothing is above the top. -/
def walkInto (place : Place) (segment : String) : Option Place :=
  if segment = "" ∨ segment = "." then some place
  else if segment = ".." then place.tail?
  else some (segment :: place)

/-- The place that segments lead to, one after the other. -/
def walkAlong (place : Place) (segments : List String) : Option Place :=
  segments.foldlM walkInto place

/-- Segments in normal form: so many that lead up, and then names. -/
structure IsNormal (segments : List String) : Prop where
  empty : "" ∉ segments
  dot : "." ∉ segments
  front : ∃ up names, segments = List.replicate up ".." ++ names ∧ ".." ∉ names

/-- How many segments lead up in front of all others. -/
def upward (segments : List String) : Nat :=
  (segments.takeWhile (· = "..")).length

/-- From every place that is deep enough for the normal form, what was written leads to the same
place as the normal form. -/
def LeadsAlike (written normal : List String) : Prop :=
  ∀ place : Place, upward normal ≤ place.length →
    ∃ last, walkAlong place written = some last ∧ walkAlong place normal = some last

variable {place : Place} {segments names : List String} {segment : String}

theorem walkAlong_append (place : Place) (first second : List String) :
    walkAlong place (first ++ second) = (walkAlong place first).bind (walkAlong · second) :=
  List.foldlM_append

theorem walkAlong_concat (place : Place) (first : List String) (segment : String) :
    walkAlong place (first ++ [segment]) = (walkAlong place first).bind (walkInto · segment) := by
  rw [walkAlong_append]
  congr 1
  funext mid
  simp [walkAlong]

theorem walkInto_of_name (place : Place) (hempty : segment ≠ "") (hdot : segment ≠ ".")
    (hup : segment ≠ "..") : walkInto place segment = some (segment :: place) := by
  simp [walkInto, hempty, hdot, hup]

/-- Names lead into one another. -/
theorem walkAlong_names (place : Place) (hempty : "" ∉ names) (hdot : "." ∉ names)
    (hup : ".." ∉ names) : walkAlong place names = some (names.reverse ++ place) := by
  induction names using List.reverseRecOn with
  | nil => rfl
  | append_singleton before name ih =>
      simp only [List.mem_append, List.mem_singleton, not_or] at hempty hdot hup
      rw [walkAlong_concat, ih hempty.1 hdot.1 hup.1, Option.bind_some,
        walkInto_of_name _ (Ne.symm hempty.2) (Ne.symm hdot.2) (Ne.symm hup.2)]
      simp

/-- Going up takes names away, as far as there are any. -/
theorem walkAlong_up (place : Place) (up : Nat) :
    walkAlong place (List.replicate up "..") =
      if up ≤ place.length then some (place.drop up) else none := by
  induction up with
  | zero => simp [walkAlong]
  | succ up ih =>
      rw [List.replicate_succ', walkAlong_concat, ih]
      by_cases hup : up ≤ place.length
      · rw [if_pos hup, Option.bind_some]
        show (place.drop up).tail? = _
        cases hrest : place.drop up with
        | nil =>
            have hlength := congrArg List.length hrest
            rw [List.length_drop, List.length_nil] at hlength
            rw [if_neg (by omega)]
            rfl
        | cons name rest =>
            have hlength := congrArg List.length hrest
            rw [List.length_drop, List.length_cons] at hlength
            rw [if_pos (by omega), ← List.tail_drop, hrest]
            rfl
      · rw [if_neg hup, if_neg (by omega)]
        rfl

theorem upward_normal (up : Nat) (h : ".." ∉ names) :
    upward (List.replicate up ".." ++ names) = up := by
  have hnames : names.takeWhile (· = "..") = [] := by
    cases names with
    | nil => rfl
    | cons name rest =>
        have hname : name ≠ ".." := Ne.symm (not_or.1 (mt List.mem_cons.2 h)).1
        simp [hname]
  have hall : ∀ s ∈ List.replicate up "..", decide (s = "..") = true := by
    intro s hs
    simpa using List.eq_of_mem_replicate hs
  rw [upward, List.takeWhile_append_of_pos hall, hnames, List.append_nil, List.length_replicate]

/-- A normal form leads up and then into its names, from every place that is deep enough. -/
theorem walkAlong_normal {up : Nat} (h : IsNormal (List.replicate up ".." ++ names))
    (hnames : ".." ∉ names) (hdeep : up ≤ place.length) :
    walkAlong place (List.replicate up ".." ++ names) = some (names.reverse ++ place.drop up) := by
  rw [walkAlong_append, walkAlong_up, if_pos hdeep, Option.bind_some]
  exact walkAlong_names _ (mt (List.mem_append_right _) h.empty)
    (mt (List.mem_append_right _) h.dot) hnames

/-! ## Cleaning segments -/

/-- Only a segment that says something is new on the stack it is pushed on. -/
theorem mem_pushSegment {done : List String} {s : String} (h : s ∈ pushSegment done segment) :
    s ∈ done ∨ s = segment ∧ s ≠ "" ∧ s ≠ "." := by
  unfold pushSegment at h
  split at h
  · exact Or.inl h
  · next hspoken =>
      split at h
      · next hup =>
          cases done with
          | nil =>
              obtain rfl := List.mem_singleton.1 h
              exact Or.inr ⟨hup.symm, by decide⟩
          | cons last before =>
              simp only at h
              split at h
              · rcases List.mem_cons.1 h with rfl | hmem
                · exact Or.inr ⟨hup.symm, by decide⟩
                · exact Or.inl hmem
              · exact Or.inl (List.mem_cons_of_mem _ h)
      · rcases List.mem_cons.1 h with rfl | hmem
        · exact Or.inr ⟨rfl, not_or.1 hspoken⟩
        · exact Or.inl hmem

/-- The cleaned segments are written ones that say something. -/
theorem mem_normalize {s : String} (h : s ∈ normalize segments) :
    s ∈ segments ∧ s ≠ "" ∧ s ≠ "." := by
  rw [normalize, List.mem_reverse] at h
  induction segments using List.reverseRecOn with
  | nil => cases h
  | append_singleton before segment ih =>
      rw [List.foldl_append] at h
      rcases mem_pushSegment h with hdone | ⟨rfl, hspoken⟩
      · obtain ⟨hmem, hspoken⟩ := ih hdone
        exact ⟨List.mem_append_left _ hmem, hspoken⟩
      · exact ⟨List.mem_append_right _ List.mem_cons_self, hspoken⟩

/-- A pushed segment leads where the segment does behind what was on the stack. -/
theorem walkAlong_pushSegment {done : List String} (hspoken : ∀ s ∈ done, s ≠ "" ∧ s ≠ ".") :
    walkAlong place (pushSegment done segment).reverse =
      (walkAlong place done.reverse).bind (walkInto · segment) := by
  unfold pushSegment
  split
  · next hsilent =>
      have hstays : (walkInto · segment) = fun mid : Place => some mid := by
        funext mid
        rw [walkInto, if_pos hsilent]
      rw [hstays, Option.bind_fun_some]
  · split
    · next hup =>
        subst hup
        cases done with
        | nil => simp [walkAlong]
        | cons last before =>
            simp only
            split
            · rw [List.reverse_cons, walkAlong_concat]
            · -- the name on top is taken back
              next hlast =>
                obtain ⟨hempty, hdot⟩ := hspoken last List.mem_cons_self
                rw [List.reverse_cons, walkAlong_concat, Option.bind_assoc]
                simp only [walkInto_of_name _ hempty hdot hlast, Option.bind_some]
                exact (Option.bind_fun_some _).symm
    · rw [List.reverse_cons, walkAlong_concat]

/-- The cleaned segments lead where the written ones do. -/
theorem walkAlong_normalize (place : Place) (segments : List String) :
    walkAlong place (normalize segments) = walkAlong place segments := by
  induction segments using List.reverseRecOn with
  | nil => rfl
  | append_singleton before segment ih =>
      have hspoken : ∀ s ∈ before.foldl pushSegment [], s ≠ "" ∧ s ≠ "." := by
        intro s hs
        exact (mem_normalize (List.mem_reverse.2 hs)).2
      rw [walkAlong_concat, ← ih, normalize, List.foldl_append]
      exact walkAlong_pushSegment hspoken

theorem isNormal_normalize (segments : List (List Char)) :
    IsNormal (normalize (segments.map String.ofList)) := by
  obtain ⟨up, names, hleads⟩ := normalize_leads segments
  refine ⟨fun h => (mem_normalize h).2.1 rfl, fun h => (mem_normalize h).2.2 rfl,
    up, names.reverse, hleads.normal, ?_⟩
  rw [List.mem_reverse]
  exact hleads.ordinary

theorem leadsAlike_normalize (segments : List (List Char)) :
    LeadsAlike (segments.map String.ofList) (normalize (segments.map String.ofList)) := by
  intro place hdeep
  have hnormal := isNormal_normalize segments
  obtain ⟨up, names, heq, hnames⟩ := hnormal.front
  rw [heq, upward_normal up hnames] at hdeep
  refine ⟨names.reverse ++ place.drop up, ?_, ?_⟩
  · rw [← walkAlong_normalize, heq, walkAlong_normal (heq ▸ hnormal) hnames hdeep]
  · rw [heq, walkAlong_normal (heq ▸ hnormal) hnames hdeep]

/-! ## There is one normal form -/

/-- Ways that go up by different lengths end differently from some place. -/
theorem up_eq_of_ends_eq {names names' : List String} {up up' : Nat} (hle : up ≤ up')
    (h : ∀ place : Place, up' ≤ place.length →
      names.reverse ++ place.drop up = names'.reverse ++ place.drop up') :
    up = up' ∧ names = names' := by
  have hends : ∀ name, names.reverse ++ List.replicate (up' - up) name = names'.reverse := by
    intro name
    simpa using h (List.replicate up' name) (by simp)
  have hrest : List.replicate (up' - up) "a" = List.replicate (up' - up) "b" :=
    List.append_cancel_left ((hends "a").trans (hends "b").symm)
  have hzero : up' - up = 0 := by
    cases hup : up' - up with
    | zero => rfl
    | succ n =>
        rw [hup, List.replicate_succ, List.replicate_succ] at hrest
        exact absurd (List.cons.inj hrest).1 (by decide)
  have hnames := hends "a"
  rw [hzero, List.replicate_zero, List.append_nil, List.reverse_inj] at hnames
  exact ⟨by omega, hnames⟩

/-- Normal forms that lead where something written leads are the same. -/
theorem eq_of_leadsAlike {written normal other : List String} (hnormal : IsNormal normal)
    (halike : LeadsAlike written normal) (hother : IsNormal other)
    (halike' : LeadsAlike written other) : other = normal := by
  obtain ⟨up, names, rfl, hnames⟩ := hnormal.front
  obtain ⟨up', names', rfl, hnames'⟩ := hother.front
  have hends : ∀ place : Place, up ≤ place.length → up' ≤ place.length →
      names.reverse ++ place.drop up = names'.reverse ++ place.drop up' := by
    intro place hup hup'
    obtain ⟨last, hwritten, hlast⟩ := halike place (by rwa [upward_normal up hnames])
    obtain ⟨last', hwritten', hlast'⟩ := halike' place (by rwa [upward_normal up' hnames'])
    rw [walkAlong_normal hnormal hnames hup] at hlast
    rw [walkAlong_normal hother hnames' hup'] at hlast'
    rw [hwritten, Option.some.injEq] at hwritten'
    rw [Option.some.inj hlast, Option.some.inj hlast', hwritten']
  rcases Nat.le_total up up' with hle | hle
  · obtain ⟨rfl, rfl⟩ := up_eq_of_ends_eq hle
      fun place hdeep => hends place (hle.trans hdeep) hdeep
    rfl
  · obtain ⟨rfl, rfl⟩ := up_eq_of_ends_eq hle
      fun place hdeep => (hends place hdeep (hle.trans hdeep)).symm
    rfl

/-! ## The directory of a destination -/

/-- What is written in front of the last slash of a path; nothing if there is no slash. -/
def directoryText (path : List Char) : List Char :=
  (path.reverse.dropWhile (· ≠ '/')).tail.reverse

/-- A path without a slash, or taken apart at its last one. -/
theorem directoryText_cases (path : List Char) :
    '/' ∉ path ∧ directoryText path = [] ∨
      ∃ last, path = directoryText path ++ '/' :: last ∧ '/' ∉ last := by
  have hsplit : path.reverse = path.reverse.takeWhile (· ≠ '/')
      ++ path.reverse.dropWhile (· ≠ '/') := List.takeWhile_append_dropWhile.symm
  have hlast : '/' ∉ path.reverse.takeWhile (· ≠ '/') := by
    intro hmem
    simpa using List.mem_takeWhile_imp hmem
  cases hrest : path.reverse.dropWhile (· ≠ '/') with
  | nil =>
      rw [hrest, List.append_nil] at hsplit
      refine Or.inl ⟨?_, by rw [directoryText, hrest]; rfl⟩
      rw [← List.mem_reverse, hsplit]
      exact hlast
  | cons c before =>
      have hslash : c = '/' := by
        have hhead := List.head?_dropWhile_not (· ≠ '/') path.reverse
        rw [hrest] at hhead
        simpa using hhead
      refine Or.inr ⟨(path.reverse.takeWhile (· ≠ '/')).reverse, ?_, ?_⟩
      · rw [hrest, hslash] at hsplit
        rw [directoryText, hrest, List.tail_cons, ← List.reverse_inj]
        simpa using hsplit
      · rw [List.mem_reverse]
        exact hlast

/-- The directory of a path is cleaned from what is written in front of its last slash. -/
theorem normalize_directorySegments (path : List Char) :
    normalize (directorySegments path) =
      normalize ((segmentsOf (directoryText path)).map String.ofList) := by
  rcases directoryText_cases path with ⟨hslash, hnone⟩ | ⟨last, hpath, hslash⟩
  · rw [hnone, directorySegments, segmentsOf_of_not_mem hslash]
    rfl
  · have hsegments : segmentsOf path = segmentsOf (directoryText path) ++ [last] := by
      rw [← segmentsOf_of_not_mem hslash, ← segmentsOf_append, ← hpath]
    rw [directorySegments, hsegments, List.dropLast_concat]

/-- The part of a destination in front of its query and fragment has none of its own. -/
theorem pathOf_pathOf (destination : String) :
    pathOf (String.ofList (pathOf destination)) = pathOf destination := by
  rw [pathOf, String.toList_ofList, pathOf]
  exact List.takeWhile_idem

theorem mem_of_mem_dropFolder {folder s : String} (h : s ∈ dropFolder folder segments) :
    s ∈ segments := by
  unfold dropFolder at h
  split at h
  · exact List.dropLast_subset _ h
  · exact h

/-- The path of a directory has the segments that lead there. -/
theorem segmentsOf_path {segments : List String} (hnonempty : segments ≠ [])
    (hslash : ∀ s ∈ segments, '/' ∉ s.toList) :
    segmentsOf (Directory.ofSegments segments).path.toList = segments.map String.toList := by
  obtain ⟨first, more, rfl⟩ := List.exists_cons_of_ne_nil hnonempty
  have hjoin : (Directory.ofSegments (first :: more)).path.toList
      = joinSegments ((first :: more).map String.toList) := by
    rw [Directory.ofSegments, Directory.path, joinSegments, String.toList_intercalate]
    rfl
  rw [hjoin]
  refine segmentsOf_joinSegments (by simp) ?_
  intro segment hsegment
  obtain ⟨s, hs, rfl⟩ := List.mem_map.1 hsegment
  exact hslash s hs

/-- **The directory of a destination is the normal form of what is written.** There is one normal
form that leads where the segments in front of the last slash lead, from every place that is deep
enough for it. A destination names no attachment exactly if its path, without query and fragment,
is empty, starts at the root or has a colon in its first segment; otherwise its directory is what
is left of the normal form when a last segment with the folder's name is taken off, and the path
of the directory is read back as these segments. Query and fragment have no part in it. -/
theorem classify_eq_normalForm (folder destination : String) :
    let path := pathOf destination
    let written := (segmentsOf (directoryText path)).map String.ofList
    ∃ normal left, (IsNormal normal ∧ LeadsAlike written normal) ∧
      (∀ other, IsNormal other → LeadsAlike written other → other = normal) ∧
      left = (if normal.getLast? = some folder then normal.dropLast else normal) ∧
      (left = [] ∨
        segmentsOf (Directory.ofSegments left).path.toList = left.map String.toList) ∧
      classify folder destination =
        (if path = [] ∨ path.head? = some '/' ∨ ':' ∈ path.takeWhile (· != '/') then none
        else some (.ofSegments left)) ∧
      classify folder (String.ofList path) = classify folder destination := by
  intro path written
  refine ⟨normalize written, dropFolder folder (normalize written),
    ⟨isNormal_normalize _, leadsAlike_normalize _⟩, ?_, rfl, ?_, ?_, ?_⟩
  · intro other hother halike
    exact eq_of_leadsAlike (isNormal_normalize _) (leadsAlike_normalize _) hother halike
  · refine or_iff_not_imp_left.2 fun hleft => segmentsOf_path hleft ?_
    intro s hs
    obtain ⟨segment, hsegment, rfl⟩ := List.mem_map.1 (mem_normalize (mem_of_mem_dropFolder hs)).1
    rw [String.toList_ofList]
    exact slash_not_mem_of_mem_segmentsOf hsegment
  · rw [classify_eq, directoryPart, normalize_directorySegments]
  · rw [classify_eq, classify_eq, pathOf_pathOf]

/-- Segments that lead up take names back, wherever empty segments stand between them. -/
example : classify "assets" "a/.//../../b/assets/c.png?raw#top" = some (.page ".." ["b"]) := by
  decide +kernel

end WikiPress.Attachment
