import Mathlib.Data.List.Induction
import WikiPress.Attachment
import WikiPress.Proofs.Files.Lexical

/-!
# WikiPress.Proofs.Attachment

Where the destination of an attachment leads, and what its directory says of it.

Design points:

* The normal form of a path is so many segments `..` and then ordinary names. Held in
  reverse it is a place, with the names in front, and the segments lead from any place to
  the same as their normal form (`normalize_leads`).
* So a directory says of a path how far up it leads and by which names down again
  (`directoryPart_leads`), except for the attachments folder that was taken off.
-/

namespace WikiPress.Attachment

open WikiPress.Files (Place ProperName stepOf stepFrom lexically segmentsOf_append)
open WikiPress.Text (segmentsOf)

/-! ## Normal forms -/

/-- The text of a segment tells its step. -/
theorem stepOf_cases (segment : List Char) :
    String.ofList segment = "" ∧ stepOf segment = none
      ∨ String.ofList segment = "." ∧ stepOf segment = some .stay
      ∨ String.ofList segment = ".." ∧ stepOf segment = some .up
      ∨ (String.ofList segment ≠ "" ∧ String.ofList segment ≠ "." ∧ String.ofList segment ≠ "..")
        ∧ stepOf segment = some (.into (String.ofList segment)) := by
  have hiff : ∀ text : String, String.ofList segment = text ↔ segment = text.toList := by
    intro text
    rw [← String.toList_inj, String.toList_ofList]
  have hempty : String.ofList segment = "" ↔ segment = [] := hiff ""
  have hdot : String.ofList segment = "." ↔ segment = ['.'] := hiff "."
  have hup : String.ofList segment = ".." ↔ segment = ['.', '.'] := hiff ".."
  rw [hempty, hdot, hup, Ne, Ne, Ne, hempty, hdot, hup, stepOf]
  split
  · next h => exact Or.inl ⟨h, rfl⟩
  · next h =>
      split
      · next h => exact Or.inr (Or.inl ⟨h, rfl⟩)
      · next h' =>
          split
          · next h => exact Or.inr (Or.inr (Or.inl ⟨h, rfl⟩))
          · next h'' => exact Or.inr (Or.inr (Or.inr ⟨⟨h, h', h''⟩, rfl⟩))

/-- Some segments lead up so far and then down by these names, innermost first. -/
structure LeadsBy (segments : List (List Char)) (up : Nat) (names : Place) : Prop where
  normal : normalize (segments.map String.ofList) = List.replicate up ".." ++ names.reverse
  ordinary : ".." ∉ names
  leads : ∀ place, (segments.filterMap stepOf).foldl stepFrom place = names ++ place.drop up

/-- One more segment, which changes the normal form as its step changes the place. -/
theorem LeadsBy.add {before : List (List Char)} {segment : List Char} {up up' : Nat}
    {names names' : Place} (h : LeadsBy before up names)
    (hpush : pushSegment (names ++ List.replicate up "..") (String.ofList segment)
      = names' ++ List.replicate up' "..")
    (hordinary : ".." ∉ names')
    (hstep : ∀ place : Place, (stepOf segment).elim (names ++ place.drop up)
      (stepFrom (names ++ place.drop up)) = names' ++ place.drop up') :
    LeadsBy (before ++ [segment]) up' names' := by
  refine ⟨?_, hordinary, fun place => ?_⟩
  · have hdone : (before.map String.ofList).foldl pushSegment []
        = names ++ List.replicate up ".." := by
      rw [← List.reverse_inj, ← normalize, h.normal]
      simp
    rw [normalize, List.map_append, List.foldl_append, hdone]
    simp [hpush]
  · rw [List.filterMap_append, List.foldl_append, h.leads, ← hstep]
    cases hof : stepOf segment <;> simp [hof]

/-- Segments lead where their normal form does, up first and then down. -/
theorem normalize_leads (segments : List (List Char)) :
    ∃ up names, LeadsBy segments up names := by
  induction segments using List.reverseRecOn with
  | nil => exact ⟨0, [], rfl, List.not_mem_nil, fun place => rfl⟩
  | append_singleton before segment ih =>
      obtain ⟨up, names, hbefore⟩ := ih
      rcases stepOf_cases segment with ⟨htext, hof⟩ | ⟨htext, hof⟩ | ⟨htext, hof⟩
        | ⟨⟨hempty, hdot, hup⟩, hof⟩
      · exact ⟨up, names, hbefore.add (by simp [pushSegment, htext]) hbefore.ordinary
          (by simp [hof])⟩
      · exact ⟨up, names, hbefore.add (by simp [pushSegment, htext]) hbefore.ordinary
          (by simp [hof, stepFrom])⟩
      -- a name is taken back, if there is one, and else it is one more up
      · cases names with
        | nil =>
            refine ⟨up + 1, [], hbefore.add ?_ List.not_mem_nil (by simp [hof, stepFrom])⟩
            cases up <;> simp [pushSegment, htext, List.replicate_succ]
        | cons name names =>
            obtain ⟨hname, hnames⟩ := not_or.1 (mt List.mem_cons.2 hbefore.ordinary)
            exact ⟨up, names, hbefore.add (by simp [pushSegment, htext, Ne.symm hname]) hnames
              (by simp [hof, stepFrom])⟩
      · have hordinary : ".." ∉ String.ofList segment :: names := by
          rw [List.mem_cons, not_or]
          exact ⟨Ne.symm hup, hbefore.ordinary⟩
        exact ⟨up, String.ofList segment :: names,
          hbefore.add (by simp [pushSegment, hempty, hdot, hup]) hordinary
            (by simp [hof, stepFrom])⟩

/-! ## Directories -/

/-- The page of a directory has the name of its last segment. -/
theorem pageTitle_ofSegments (segments : List String) :
    (Directory.ofSegments segments).pageTitle = segments.getLast? := by
  cases segments with
  | nil => rfl
  | cons first more => rw [Directory.ofSegments, Directory.pageTitle, List.getLast?_cons]

theorem dropFolder_concat (folder name : String) (segments : List String) :
    dropFolder folder (segments ++ [name])
      = if name = folder then segments else segments ++ [name] := by
  simp [dropFolder]

/-- The attachments folder is no segment that leads up. -/
theorem dropFolder_replicate_append {folder : String} (hfolder : folder ≠ "..") (up : Nat)
    (segments : List String) :
    dropFolder folder (List.replicate up ".." ++ segments)
      = List.replicate up ".." ++ dropFolder folder segments := by
  induction segments using List.reverseRecOn with
  | nil =>
      have hlast : (List.replicate up "..").getLast? ≠ some folder := by
        intro hlast
        exact hfolder (List.eq_of_mem_replicate (List.mem_of_getLast? hlast))
      simp [dropFolder, hlast]
  | append_singleton before name _ =>
      rw [← List.append_assoc, dropFolder_concat, dropFolder_concat]
      split <;> simp

/-- The segments of a path's directory, brought to normal form and with the attachments folder
taken off. -/
def directoryPart (folder : String) (path : List Char) : List String :=
  dropFolder folder (normalize (directorySegments path))

/-- Where a path leads that ends in a name: as far up and down again as its directory says,
through the attachments folder if that was taken off, to the name. -/
theorem directoryPart_leads {folder name : String} {path : List Char} (hfolder : folder ≠ "..")
    (hname : ProperName name) (hends : (segmentsOf path).getLast? = some name.toList) :
    ∃ up names,
      directoryPart folder path = List.replicate up ".." ++ dropFolder folder names.reverse
      ∧ ∀ place, lexically place path = name :: (names ++ place.drop up) := by
  obtain ⟨before, hsegments⟩ := List.getLast?_eq_some_iff.1 hends
  obtain ⟨up, names, hleads⟩ := normalize_leads before
  refine ⟨up, names, ?_, fun place => ?_⟩
  · rw [directoryPart, directorySegments, hsegments, List.dropLast_concat, hleads.normal,
      dropFolder_replicate_append hfolder]
  · rw [lexically, hsegments, List.filterMap_append, List.foldl_append, hleads.leads]
    simp [hname.stepOf, stepFrom]

theorem eq_of_dropFolder_eq_nil {folder : String} {segments : List String}
    (h : dropFolder folder segments = []) : segments = [] ∨ segments = [folder] := by
  cases segments using List.reverseRecOn with
  | nil => exact .inl rfl
  | append_singleton before name =>
      rw [dropFolder_concat] at h
      split at h
      · next hname =>
          subst hname
          exact .inr (by rw [h, List.nil_append])
      · simp at h

/-- Where a path of the document's own directory leads that ends in a name: to that name there
or in the attachments folder there. -/
theorem lexically_of_current {folder name : String} {path : List Char} (hfolder : folder ≠ "..")
    (hname : ProperName name) (hends : (segmentsOf path).getLast? = some name.toList)
    (hcurrent : directoryPart folder path = []) (place : Place) :
    lexically place path = name :: place ∨ lexically place path = name :: folder :: place := by
  obtain ⟨up, names, hpart, hleads⟩ := directoryPart_leads hfolder hname hends
  rw [hcurrent, eq_comm, List.append_eq_nil_iff] at hpart
  obtain ⟨hup, hnames⟩ := hpart
  obtain rfl := (List.replicate_eq_nil_iff "..").1 hup
  rw [hleads, List.drop_zero]
  rcases eq_of_dropFolder_eq_nil hnames with hnone | hone
  · obtain rfl := List.reverse_eq_nil_iff.1 hnone
    exact .inl rfl
  · obtain rfl := (List.reverse_eq_cons_iff.1 hone)
    exact .inr rfl

/-! ## Destinations -/

/-- The path of a destination, without query and fragment. -/
def pathOf (destination : String) : List Char :=
  destination.toList.takeWhile fun c => c != '?' && c != '#'

/-- A path that is relative: it does not start at the root, and its first segment has no
colon. -/
structure Relative (path : List Char) : Prop where
  root : path.head? ≠ some '/'
  colon : ':' ∉ path.takeWhile (· != '/')

instance (path : List Char) : Decidable (Relative path) :=
  decidable_of_iff (path.head? ≠ some '/' ∧ ':' ∉ path.takeWhile (· != '/'))
    ⟨fun ⟨hroot, hcolon⟩ => ⟨hroot, hcolon⟩, fun h => ⟨h.root, h.colon⟩⟩

/-- The path of a destination, if it is not empty and has no colon in its first segment. -/
theorem localPath_eq (destination : String) :
    localPath destination.toList =
      if pathOf destination = [] ∨ ':' ∈ (pathOf destination).takeWhile (· != '/') then none
      else some (pathOf destination) := by
  have hcond : ((pathOf destination).isEmpty
      || ((pathOf destination).takeWhile (· != '/')).contains ':') = true ↔
      pathOf destination = [] ∨ ':' ∈ (pathOf destination).takeWhile (· != '/') := by
    simp
  exact if_congr hcond rfl rfl

/-- A destination names an attachment unless its path is empty or is no relative path, and then
one in the path's directory. -/
theorem classify_eq (folder destination : String) :
    classify folder destination =
      if pathOf destination = [] ∨ (pathOf destination).head? = some '/'
          ∨ ':' ∈ (pathOf destination).takeWhile (· != '/') then none
      else some (.ofSegments (directoryPart folder (pathOf destination))) := by
  rw [classify, localPath_eq]
  by_cases hnone : pathOf destination = [] ∨ ':' ∈ (pathOf destination).takeWhile (· != '/')
  · rw [if_pos hnone, if_pos (hnone.imp_right Or.inr)]
    rfl
  · obtain ⟨hempty, hcolon⟩ := not_or.1 hnone
    rw [if_neg hnone]
    by_cases hroot : (pathOf destination).head? = some '/'
    · rw [if_pos (Or.inr (Or.inl hroot))]
      simp [hroot]
    · rw [if_neg (by simp [hempty, hcolon, hroot])]
      simp only [Option.bind_eq_bind, Option.bind_some, if_neg hroot]
      rfl

/-- A destination with a relative path names an attachment in the path's directory. -/
theorem reference_of_relative (folder : String) {destination : String}
    (hne : pathOf destination ≠ []) (hrelative : Relative (pathOf destination)) :
    reference folder destination
      = some ⟨String.ofList (pathOf destination), filenameOf (pathOf destination),
        .ofSegments (directoryPart folder (pathOf destination))⟩ := by
  obtain ⟨hroot, hcolon⟩ := hrelative
  rw [reference, classify_eq, localPath_eq, if_neg (by simp [hne, hroot, hcolon]),
    if_neg (by simp [hne, hcolon])]
  rfl

theorem ofSegments_eq_current_iff {segments : List String} :
    Directory.ofSegments segments = .current ↔ segments = [] := by
  cases segments <;> simp [Directory.ofSegments]

/-- A destination that names an attachment has a relative path, and the attachment is told by
it. -/
theorem relative_of_reference {folder destination : String} {r : Reference}
    (h : reference folder destination = some r) :
    pathOf destination ≠ [] ∧ Relative (pathOf destination) ∧
      r = ⟨String.ofList (pathOf destination), filenameOf (pathOf destination),
        .ofSegments (directoryPart folder (pathOf destination))⟩ := by
  by_cases hnone : pathOf destination = [] ∨ (pathOf destination).head? = some '/'
      ∨ ':' ∈ (pathOf destination).takeWhile (· != '/')
  · rw [reference, classify_eq, if_pos hnone] at h
    cases h
  · obtain ⟨hne, hroot, hcolon⟩ : pathOf destination ≠ [] ∧ (pathOf destination).head? ≠ some '/'
        ∧ ':' ∉ (pathOf destination).takeWhile (· != '/') := by
      simpa only [not_or] using hnone
    rw [reference_of_relative folder hne ⟨hroot, hcolon⟩] at h
    exact ⟨hne, ⟨hroot, hcolon⟩, (Option.some.inj h).symm⟩

/-- A destination that names an attachment is a path, which is relative. -/
theorem reference_eq_some {folder destination : String} {r : Reference}
    (h : reference folder destination = some r) :
    r.path ≠ "" ∧ Files.isAbsolute r.path = false
      ∧ r.directory = .ofSegments (directoryPart folder r.path.toList) := by
  obtain ⟨hne, hrelative, rfl⟩ := relative_of_reference h
  refine ⟨by simpa using hne, ?_, by rw [String.toList_ofList]⟩
  simpa [Files.isAbsolute] using hrelative.root

/-- A path that ends in a name names that file. -/
theorem filenameOf_of_getLast? {path last : List Char}
    (hlast : (segmentsOf path).getLast? = some last) (hne : last ≠ []) :
    filenameOf path = String.ofList last := by
  -- the last segment is empty behind a slash
  have htrimmed : (path.reverse.dropWhile (· = '/')).reverse = path := by
    rcases List.eq_nil_or_concat path with rfl | ⟨before, c, rfl⟩
    · rfl
    · have hc : c ≠ '/' := by
        rintro rfl
        rw [List.concat_eq_append, segmentsOf_append] at hlast
        simp [segmentsOf, segmentsOf.go] at hlast
        exact hne hlast
      simp [hc]
  rw [filenameOf, htrimmed, hlast]
  rfl

end WikiPress.Attachment
