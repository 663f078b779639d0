import WikiPress.Proofs.Attachment.NormalForm
import WikiPress.Proofs.Config.Validate

/-!
# WikiPress.Proofs.Attachment.Location

Whether a reference says where the file is that it was written for.

The file name is read off the path without the slashes at its end, and the directory is read off
the path in front of its last slash. The two readings fit together for a path that ends in a name.

Design points:

* Behind all slashes at its end a path still ends in a segment that is not empty
  (`exists_segments`). This is the file name, and the segments in front of it lead to where
  the file is.
* Where there is no slash at the end, the directory is cleaned from the segments in front of the
  file name; the attachments folder that is taken off is one more name on the way.
* A slash at the end makes the file name itself a segment of the directory, so that the path
  leads to the directory and not into it. Only if the name is that of the attachments folder, it
  is taken off again.
-/

namespace WikiPress.Attachment

open WikiPress.Files (Place ProperName properName_ofList segmentsOf_append segmentsOf_ne_nil
  last_segment_ne_nil slash_not_mem_of_mem_segmentsOf)
open WikiPress.Text (segmentsOf)

/-! ## The end of a path -/

/-- The segments of a path as they are written. -/
def segmentsIn (path : List Char) : List String := (segmentsOf path).map String.ofList

/-- Slashes at the end of a path are empty segments. -/
theorem segmentsOf_append_slashes (path : List Char) (slashes : Nat) :
    segmentsOf (path ++ List.replicate slashes '/') =
      segmentsOf path ++ List.replicate slashes [] := by
  induction slashes with
  | zero => simp
  | succ slashes ih =>
      rw [List.replicate_succ', ← List.append_assoc, segmentsOf_append, ih, List.replicate_succ',
        ← List.append_assoc]
      rfl

/-- A path that does not start at the root ends in the file name, but for slashes. -/
theorem exists_segments {path : List Char} (hne : path ≠ []) (hroot : path.head? ≠ some '/') :
    ∃ before last slashes, segmentsOf path = before ++ last :: List.replicate slashes [] ∧
      last ≠ [] ∧ filenameOf path = String.ofList last ∧
      (path.getLast? = some '/' ↔ slashes ≠ 0) := by
  let trimmed := (path.reverse.dropWhile (· = '/')).reverse
  let slashes := (path.reverse.takeWhile (· = '/')).length
  have hslashes : path.reverse.takeWhile (· = '/') = List.replicate slashes '/' := by
    refine List.eq_replicate_iff.2 ⟨rfl, fun c hc => ?_⟩
    simpa using List.mem_takeWhile_imp hc
  have hpath : path = trimmed ++ List.replicate slashes '/' := by
    have hsplit : path.reverse.takeWhile (· = '/') ++ path.reverse.dropWhile (· = '/')
        = path.reverse := List.takeWhile_append_dropWhile
    rw [hslashes] at hsplit
    rw [← List.reverse_inj, ← hsplit]
    simp [trimmed]
  have hplain : trimmed.getLast? ≠ some '/' := by
    intro hlast
    rw [List.getLast?_reverse] at hlast
    have hnot := List.head?_dropWhile_not (· = '/') path.reverse
    rw [hlast] at hnot
    simp at hnot
  have htrimmed : trimmed ≠ [] := by
    intro hnil
    rw [hnil, List.nil_append] at hpath
    cases hs : slashes with
    | zero => exact hne (by rw [hpath, hs]; rfl)
    | succ n => exact hroot (by rw [hpath, hs]; rfl)
  obtain ⟨before, last, hsegments⟩ :=
    (List.eq_nil_or_concat' (segmentsOf trimmed)).resolve_left (segmentsOf_ne_nil _)
  refine ⟨before, last, slashes, ?_, ?_, ?_, ?_⟩
  · rw [hpath, segmentsOf_append_slashes, hsegments, List.append_assoc]
    rfl
  · have hends : segmentsOf (String.ofList trimmed).toList = before ++ [last] := by
      rw [String.toList_ofList, hsegments]
    exact last_segment_ne_nil hends (by rwa [String.toList_ofList]) (by simpa using htrimmed)
  · show String.ofList ((segmentsOf trimmed).getLast?.getD []) = _
    rw [hsegments, List.getLast?_concat]
    rfl
  · cases hs : slashes with
    | zero =>
        rw [hs, List.replicate_zero, List.append_nil] at hpath
        rw [hpath]
        exact iff_of_false hplain (by simp)
    | succ n =>
        rw [hpath, hs, List.replicate_succ', ← List.append_assoc, List.getLast?_concat]
        simp

/-! ## The directory of a path -/

variable {place : Place} {folder : String}

/-- Empty segments lead nowhere else. -/
theorem walkAlong_slashes (place : Place) (slashes : Nat) :
    walkAlong place ((List.replicate slashes []).map String.ofList) = some place := by
  induction slashes with
  | zero => rfl
  | succ slashes ih =>
      rw [List.replicate_succ', List.map_append, walkAlong_append, ih]
      rfl

/-- A path leads where its last segment leads from behind the segments in front of it. -/
theorem walkAlong_segmentsIn {path last : List Char} {before : List (List Char)} {slashes : Nat}
    (hsegments : segmentsOf path = before ++ last :: List.replicate slashes []) :
    walkAlong place (segmentsIn path) =
      (walkAlong place (normalize (before.map String.ofList))).bind
        (walkInto · (String.ofList last)) := by
  have hsplit : segmentsIn path = (before.map String.ofList ++ [String.ofList last])
      ++ (List.replicate slashes []).map String.ofList := by
    rw [segmentsIn, hsegments]
    simp
  rw [hsplit, walkAlong_append, walkAlong_concat, walkAlong_normalize]
  simp only [walkAlong_slashes, Option.bind_fun_some]

/-- Empty segments have no part in the normal form. -/
theorem normalize_append_slashes (segments : List String) (slashes : Nat) :
    normalize (segments ++ (List.replicate slashes []).map String.ofList) = normalize segments := by
  induction slashes with
  | zero => simp
  | succ slashes ih =>
      rw [List.replicate_succ', List.map_append, ← List.append_assoc]
      simpa [normalize, pushSegment] using ih

/-- A name stays at the end of the normal form. -/
theorem normalize_concat (segments : List String) {name : String} (hname : ProperName name) :
    normalize (segments ++ [name]) = normalize segments ++ [name] := by
  simp [normalize, pushSegment, hname.nonempty, hname.dot, hname.up]

/-- Without a slash at the end the directory is cleaned from what is in front of the file name. -/
theorem directoryPart_of_plain {path last : List Char} {before : List (List Char)}
    (hsegments : segmentsOf path = before ++ [last]) :
    directoryPart folder path = dropFolder folder (normalize (before.map String.ofList)) := by
  rw [directoryPart, directorySegments, hsegments, List.dropLast_concat]

/-- With a slash at the end the file name is the last name of the directory, unless it is that of
the attachments folder. -/
theorem directoryPart_of_slash {path last : List Char} {before : List (List Char)} {slashes : Nat}
    (hsegments : segmentsOf path = before ++ last :: List.replicate (slashes + 1) [])
    (hlast : ProperName (String.ofList last)) :
    directoryPart folder path =
      if String.ofList last = folder then normalize (before.map String.ofList)
      else normalize (before.map String.ofList) ++ [String.ofList last] := by
  have hsplit : directorySegments path = (before.map String.ofList ++ [String.ofList last])
      ++ (List.replicate slashes []).map String.ofList := by
    have hfront : before ++ last :: List.replicate (slashes + 1) []
        = (before ++ last :: List.replicate slashes []) ++ [[]] := by
      rw [List.replicate_succ']
      simp
    rw [directorySegments, hsegments, hfront, List.dropLast_concat]
    simp
  rw [directoryPart, hsplit, normalize_append_slashes, normalize_concat _ hlast, dropFolder_concat]

/-- A normal form leads somewhere from every place that is deep enough. -/
theorem exists_walkAlong {segments : List String} (h : IsNormal segments)
    (hdeep : upward segments ≤ place.length) : ∃ last, walkAlong place segments = some last := by
  obtain ⟨up, names, rfl, hnames⟩ := h.front
  rw [upward_normal up hnames] at hdeep
  exact ⟨_, walkAlong_normal h hnames hdeep⟩

/-- A name at the end does not lead up. -/
theorem upward_concat (segments : List String) {name : String} (hname : name ≠ "..") :
    upward (segments ++ [name]) = upward segments := by
  rw [upward, upward, List.takeWhile_append]
  split
  · next hall => simp [hname, hall]
  · rfl

/-- The normal form leads where it leads without the attachments folder, or into that folder
there. -/
theorem walkAlong_dropFolder {segments : List String} (hfolder : ProperName folder)
    (hnormal : IsNormal segments) (hdeep : upward (dropFolder folder segments) ≤ place.length) :
    ∃ directory, walkAlong place (dropFolder folder segments) = some directory ∧
      (walkAlong place segments = some directory ∨
        walkAlong place segments = some (folder :: directory)) := by
  rcases List.eq_nil_or_concat' segments with rfl | ⟨before, name, rfl⟩
  · exact ⟨place, rfl, Or.inl rfl⟩
  · rw [dropFolder_concat] at hdeep ⊢
    split at hdeep
    · next hname =>
        subst hname
        rw [← upward_concat before hfolder.up] at hdeep
        obtain ⟨last, hlast⟩ := exists_walkAlong hnormal hdeep
        rw [if_pos rfl, hlast]
        rw [walkAlong_concat] at hlast
        obtain ⟨directory, hdirectory, hinto⟩ := Option.bind_eq_some_iff.1 hlast
        rw [walkInto_of_name _ hfolder.nonempty hfolder.dot hfolder.up] at hinto
        exact ⟨directory, hdirectory, Or.inr hinto.symm⟩
    · next hname =>
        obtain ⟨last, hlast⟩ := exists_walkAlong hnormal hdeep
        rw [if_neg hname]
        exact ⟨last, hlast, Or.inl hlast⟩

/-! ## Where the file of a reference is -/

/-- Whether a reference says where its file is: by a file name and a directory such that the path
leads to that name in the directory or in the attachments folder there, from every place that is
deep enough for the directory. -/
structure Located (folder : String) (r : Reference) : Prop where
  name : ProperName r.filename
  leads : ∀ place : Place, upward r.directory.segments ≤ place.length →
    ∃ directory, walkAlong place r.directory.segments = some directory ∧
      (walkAlong place (segmentsIn r.path.toList) = some (r.filename :: directory) ∨
        walkAlong place (segmentsIn r.path.toList) = some (r.filename :: folder :: directory))

@[simp] theorem segments_ofSegments (segments : List String) :
    (Directory.ofSegments segments).segments = segments := by
  cases segments <;> rfl

section Reference

variable {r : Reference} {before : List (List Char)} {last : List Char} {slashes : Nat}

/-- The file is found if what is in front of its name leads to the directory or to the attachments
folder there. -/
theorem located_of_leads (hname : ProperName r.filename)
    (hsegments : segmentsOf r.path.toList = before ++ last :: List.replicate slashes [])
    (hlast : r.filename = String.ofList last)
    (hleads : ∀ place : Place, upward r.directory.segments ≤ place.length →
      ∃ directory, walkAlong place r.directory.segments = some directory ∧
        (walkAlong place (normalize (before.map String.ofList)) = some directory ∨
          walkAlong place (normalize (before.map String.ofList)) = some (folder :: directory))) :
    Located folder r := by
  refine ⟨hname, fun place hdeep => ?_⟩
  obtain ⟨directory, hdirectory, hnormal⟩ := hleads place hdeep
  have hinto : ∀ mid, walkInto mid (String.ofList last) = some (r.filename :: mid) := by
    intro mid
    rw [← hlast]
    exact walkInto_of_name mid hname.nonempty hname.dot hname.up
  refine ⟨directory, hdirectory, ?_⟩
  rw [walkAlong_segmentsIn hsegments]
  rcases hnormal with hnormal | hnormal
  · exact Or.inl (by rw [hnormal, Option.bind_some, hinto])
  · exact Or.inr (by rw [hnormal, Option.bind_some, hinto])

/-- The file is not found where the path leads to the directory itself. -/
theorem not_located_of_directory (hleads : ∀ place,
    walkAlong place (segmentsIn r.path.toList) = walkAlong place r.directory.segments) :
    ¬ Located folder r := by
  intro hlocated
  obtain ⟨directory, hdirectory, hinto⟩ :=
    hlocated.leads (List.replicate (upward r.directory.segments) "a") (by simp)
  rw [hleads, hdirectory, Option.some.injEq, Option.some.injEq] at hinto
  have hlength : directory.length ≠ directory.length + 1
      ∧ directory.length ≠ directory.length + 1 + 1 := by omega
  rcases hinto with hinto | hinto
  · exact hlength.1 (congrArg List.length hinto)
  · exact hlength.2 (congrArg List.length hinto)

end Reference

/-- **A reference locates its file if the path ends in a name.** The file name of a reference is
never empty and has no slash. It is a name that the path leads to in the directory, or in the
attachments folder there, exactly if it does not itself stay or lead up, and the path has no slash
at its end unless the name is that of the attachments folder. Otherwise a path with a slash at its
end leads to the directory itself. -/
theorem located_iff (config : Config) (destination : String) (r : Reference)
    (hvalid : config.validate = .ok ())
    (h : reference config.attachmentsFolder destination = some r) :
    (r.filename ≠ "" ∧ '/' ∉ r.filename.toList) ∧
      (Located config.attachmentsFolder r ↔
        r.filename ≠ "." ∧ r.filename ≠ ".." ∧
          (r.path.toList.getLast? = some '/' → r.filename = config.attachmentsFolder)) ∧
      (r.path.toList.getLast? = some '/' → ProperName r.filename →
        r.filename ≠ config.attachmentsFolder →
        ∀ place, walkAlong place (segmentsIn r.path.toList) =
          walkAlong place r.directory.segments) := by
  have hfolder := Config.properName_of_validate hvalid
  obtain ⟨hne, hrelative, hr⟩ := relative_of_reference h
  obtain ⟨before, last, slashes, hsegments, hlast, hfilename, hslash⟩ :=
    exists_segments hne hrelative.root
  have hpath : r.path.toList = pathOf destination := by rw [hr, String.toList_ofList]
  have hname : r.filename = String.ofList last := by rw [hr, hfilename]
  have hdirectory : r.directory.segments
      = directoryPart config.attachmentsFolder r.path.toList := by
    rw [hpath, hr, segments_ofSegments]
  rw [← hpath] at hsegments hslash
  have hwhole : r.filename ≠ "" ∧ '/' ∉ r.filename.toList := by
    have hmem : last ∈ segmentsOf r.path.toList := by simp [hsegments]
    rw [hname, String.toList_ofList]
    exact ⟨by simpa using hlast, slash_not_mem_of_mem_segmentsOf hmem⟩
  -- a slash at the end makes the file name a name of the directory
  have hends : r.path.toList.getLast? = some '/' → ProperName r.filename →
      r.directory.segments = if r.filename = config.attachmentsFolder
        then normalize (before.map String.ofList)
        else normalize (before.map String.ofList) ++ [r.filename] := by
    intro hslashed hfile
    obtain ⟨n, rfl⟩ := Nat.exists_eq_succ_of_ne_zero (hslash.1 hslashed)
    rw [hname] at hfile
    rw [hdirectory, directoryPart_of_slash hsegments hfile, hname]
  have hitself : r.path.toList.getLast? = some '/' → ProperName r.filename →
      r.filename ≠ config.attachmentsFolder → ∀ place,
        walkAlong place (segmentsIn r.path.toList) = walkAlong place r.directory.segments := by
    intro hslashed hfile hother place
    rw [walkAlong_segmentsIn hsegments, hends hslashed hfile, if_neg hother, walkAlong_concat,
      hname]
  refine ⟨hwhole, ⟨?_, ?_⟩, hitself⟩
  · intro hlocated
    refine ⟨hlocated.name.dot, hlocated.name.up, fun hslashed => ?_⟩
    by_contra hother
    exact not_located_of_directory (hitself hslashed hlocated.name hother) hlocated
  · rintro ⟨hdot, hup, hother⟩
    have hfile : ProperName r.filename := ⟨hwhole.1, hwhole.2, hdot, hup⟩
    refine located_of_leads hfile hsegments hname fun place hdeep => ?_
    by_cases hslashed : r.path.toList.getLast? = some '/'
    · rw [hends hslashed hfile, if_pos (hother hslashed)] at hdeep ⊢
      obtain ⟨directory, hleads⟩ := exists_walkAlong (isNormal_normalize before) hdeep
      exact ⟨directory, hleads, Or.inl hleads⟩
    · obtain rfl : slashes = 0 := not_not.1 (mt hslash.2 hslashed)
      rw [hdirectory, directoryPart_of_plain hsegments] at hdeep ⊢
      exact walkAlong_dropFolder hfolder (isNormal_normalize before) hdeep

/-- `guide/assets/shot.png?v=2` names its file; `shot.png/` says that `shot.png` is in the
directory `shot.png`, and the path leads to that directory. -/
theorem located_iff_slashed :
    reference "assets" "guide/assets/shot.png?v=2" =
        some ⟨"guide/assets/shot.png", "shot.png", .page "guide" []⟩ ∧
      Located "assets" ⟨"guide/assets/shot.png", "shot.png", .page "guide" []⟩ ∧
      reference "assets" "shot.png/" = some ⟨"shot.png/", "shot.png", .page "shot.png" []⟩ ∧
      ¬ Located "assets" ⟨"shot.png/", "shot.png", .page "shot.png" []⟩ ∧
      ∀ place, walkAlong place (segmentsIn "shot.png/".toList) = walkAlong place ["shot.png"] := by
  have hvalid : (Config.standard "/").validate = .ok () := by decide
  have hplain : reference "assets" "guide/assets/shot.png?v=2" =
      some ⟨"guide/assets/shot.png", "shot.png", .page "guide" []⟩ := by decide
  have hslashed : reference "assets" "shot.png/" =
      some ⟨"shot.png/", "shot.png", .page "shot.png" []⟩ := by decide
  obtain ⟨-, hlocated, -⟩ := located_iff (Config.standard "/") _ _ hvalid hplain
  obtain ⟨-, hnot, hitself⟩ := located_iff (Config.standard "/") _ _ hvalid hslashed
  exact ⟨hplain, hlocated.2 (by decide), hslashed, mt hnot.1 (by decide),
    hitself (by decide) ⟨by decide, by decide, by decide, by decide⟩ (by decide)⟩

end WikiPress.Attachment
