import Mathlib.Data.Option.Basic
import WikiPress.Proofs.Files.Walk
import WikiPress.Proofs.Keyed

/-!
# WikiPress.Proofs.Files.Replace

When a file that was put in place is found again.

Design points:

* A file put into a directory changes nothing else: every other place keeps what it has,
  directories up to what is in them (`lookUp_put`).
* So a walk to a directory is as it was before (`Leads.before_put`), unless the file took
  the place of a link the walk came through. Then it does not reach the directory any more
  (`Reaches`), and that is the only way in which the file is not found (`read_replace_iff`).
-/

namespace WikiPress.Files

open WikiPress.Text (segmentsOf)

/-! ## What a new file changes -/

/-- Whether nodes are the same, directories up to what is in them. -/
inductive Alike : Node → Node → Prop
  | file (content : ByteArray) : Alike (.file content) (.file content)
  | link (target : String) : Alike (.link target) (.link target)
  | directory (entries others : List (String × Node)) :
      Alike (.directory entries) (.directory others)

theorem Alike.refl (node : Node) : Alike node node := by
  cases node with
  | file content => exact .file content
  | link target => exact .link target
  | directory entries => exact .directory entries entries

theorem alike_updateAt (change : Keyed Node → Keyed Node) (names : List String) (node : Node) :
    Alike node (node.updateAt change names) := by
  cases node with
  | directory entries => cases names <;> exact .directory _ _
  | file content => cases names <;> exact .file content
  | link target => cases names <;> exact .link target

/-- A change below a directory's entry is a change of that entry. -/
theorem Node.at?_updateAt_cons (change : Keyed Node → Keyed Node) (name other : String)
    (rest place : List String) (entries : List (String × Node)) :
    Node.at? (other :: place) ((Node.directory entries).updateAt change (name :: rest))
      = (Keyed.find? other entries).bind fun inner =>
        Node.at? place (if other = name then inner.updateAt change rest else inner) := by
  have hfind := Keyed.find?_map (fun n inner =>
    if n = name then Node.updateAt change rest inner else inner) other entries
  rw [Node.updateAt, Node.at?]
  show (Keyed.find? other (entries.map fun pair => (pair.1, _))).bind _ = _
  rw [hfind]
  cases Keyed.find? other entries <;> rfl

/-- The directory that is changed. -/
theorem Node.at?_updateAt_self (change : Keyed Node → Keyed Node) {names : List String}
    {node : Node} {entries : List (String × Node)}
    (h : Node.at? names node = some (.directory entries)) :
    Node.at? names (node.updateAt change names) = some (.directory (change entries)) := by
  induction names generalizing node with
  | nil =>
      obtain rfl := Option.some.inj h
      rfl
  | cons name rest ih =>
      cases node with
      | directory all =>
          rw [Node.at?] at h
          obtain ⟨inner, hinner, hrest⟩ := Option.bind_eq_some_iff.1 h
          rw [Node.at?_updateAt_cons, hinner, Option.bind_some, if_pos rfl]
          exact ih hrest
      | file content => cases h
      | link target => cases h

theorem alike_of_eq {a b : Option Node} (h : a = b) : Option.Rel Alike a b := by
  subst h
  cases a with
  | none => exact .none
  | some node => exact .some (.refl node)

/-- A place that is not at the name that is changed, nor below it. -/
theorem Node.at?_updateAt_elsewhere {change : Keyed Node → Keyed Node} {name : String}
    (hchange : ∀ entries other, other ≠ name →
      Keyed.find? other (change entries) = Keyed.find? other entries)
    {names place : List String} (node : Node) (h : ¬ names ++ [name] <+: place) :
    Option.Rel Alike (Node.at? place node) (Node.at? place (node.updateAt change names)) := by
  induction names generalizing place node with
  | nil =>
      cases place with
      | nil => exact .some (alike_updateAt _ _ node)
      | cons other place =>
          -- the change is made here, and at another name
          have hne : other ≠ name := by
            rintro rfl
            exact h (by simp)
          cases node with
          | directory entries =>
              refine alike_of_eq ?_
              rw [Node.updateAt, Node.at?, Node.at?, hchange entries other hne]
          | file content => exact alike_of_eq rfl
          | link target => exact alike_of_eq rfl
  | cons first names ih =>
      cases place with
      | nil => exact .some (alike_updateAt _ _ node)
      | cons other place =>
          cases node with
          | directory entries =>
              rw [Node.at?_updateAt_cons, Node.at?]
              cases Keyed.find? other entries with
              | none => exact .none
              | some inner =>
                  rw [Option.bind_some, Option.bind_some]
                  -- the change is made below one of the names
                  split
                  · next hfirst =>
                      subst hfirst
                      exact ih inner fun hprefix => h (by simpa using hprefix)
                  · exact alike_of_eq rfl
          | file content => exact alike_of_eq rfl
          | link target => exact alike_of_eq rfl

/-- A place that is not the one of the new node, nor below it. -/
theorem Node.at?_updateAt_set {name : String} (new : Node) {names place : List String} (node : Node)
    (h : ¬ names ++ [name] <+: place) :
    Option.Rel Alike (Node.at? place node)
      (Node.at? place (node.updateAt (Keyed.set name new) names)) :=
  Node.at?_updateAt_elsewhere (fun entries _ hne => Keyed.find?_set_of_ne hne new entries) node h

/-! ## Putting a file -/

section Put

variable {fs : FileSystem} {directory : Place} {entries : List (String × Node)}
  (hdirectory : lookUp fs.root directory = some (.directory entries)) (name : String)
  (content : ByteArray)

include hdirectory

/-- The file is where it was put. -/
theorem lookUp_put_self :
    lookUp (fs.put directory name (.file content)).root (name :: directory)
      = some (.file content) := by
  have hself : lookUp (fs.put directory name (.file content)).root directory
      = some (.directory (Keyed.set name (.file content) entries)) :=
    Node.at?_updateAt_self _ hdirectory
  rw [lookUp_cons hself, Keyed.find?_set_self]

/-- Everything but the file is as before. -/
theorem lookUp_put {place : Place} {node : Node}
    (h : lookUp (fs.put directory name (.file content)).root place = some node)
    (hnode : ∀ bytes, node ≠ .file bytes) :
    ∃ old, lookUp fs.root place = some old ∧ Alike old node := by
  have haway : ¬ directory.reverse ++ [name] <+: place.reverse := by
    intro hprefix
    obtain ⟨below, hbelow⟩ := hprefix
    have hself := lookUp_put_self hdirectory name content
    rw [lookUp, List.reverse_cons] at hself
    rw [lookUp, ← hbelow, Node.at?_append, hself, Option.bind_some] at h
    -- nothing is below a file
    cases below with
    | nil => exact hnode _ (Option.some.inj h).symm
    | cons other below => cases h
  have halike := Node.at?_updateAt_set (.file content) fs.root haway
  rw [lookUp, FileSystem.put] at h
  rw [h] at halike
  cases hold : Node.at? place.reverse fs.root with
  | none =>
      rw [hold] at halike
      cases halike
  | some old =>
      rw [hold] at halike
      cases halike with
      | some halike => exact ⟨old, hold, halike⟩

theorem DirectoryAt.before_put {place : Place}
    (h : DirectoryAt (fs.put directory name (.file content)).root place) :
    DirectoryAt fs.root place := by
  obtain ⟨others, hothers⟩ := h
  obtain ⟨old, hold, halike⟩ := lookUp_put hdirectory name content hothers (by simp)
  cases halike with
  | directory entries _ => exact ⟨entries, hold⟩

/-- Steps that lead to a directory led there before. -/
theorem Leads.before_put {links left : Nat} {place last : Place} {steps : List Step}
    (h : Leads (fs.put directory name (.file content)).root links place steps last left)
    (hlast : DirectoryAt (fs.put directory name (.file content)).root last) :
    Leads fs.root links place steps last left := by
  induction h with
  | arrived => exact .arrived
  | stay hdir _ ih => exact .stay (hdir.before_put hdirectory name content) (ih hlast)
  | up hdir habove hrest ih =>
      obtain ⟨above, hold⟩ := (hrest.directoryAt hlast).before_put hdirectory name content
      exact .up (hdir.before_put hdirectory name content) hold (ih hlast)
  | into hdir hname hinner _ hrest ih =>
      -- the walk goes on inside, so what it went into is a directory
      obtain ⟨inner, hold⟩ := (hrest.directoryAt hlast).before_put hdirectory name content
      exact .into (hdir.before_put hdirectory name content) hname hold (by simp) (ih hlast)
  | link hdir hname hlink _ ih =>
      obtain ⟨old, hold, halike⟩ := lookUp_put hdirectory name content hlink (by simp)
      cases halike with
      | link target =>
          exact .link (hdir.before_put hdirectory name content) hname hold (ih hlast)

end Put

/-! ## Replacing a file -/

/-- The steps to the directory of a path. -/
def leadingSteps (path : String) : List Step :=
  ((segmentsOf path.toList).filterMap stepOf).dropLast

/-- Whether the directory of a path can be reached. -/
def Reaches (fs : FileSystem) (path : String) : Prop :=
  ∃ place entries,
    fs.walkFrom path true (leadingSteps path) = .ok (.node place (.directory entries))

/-- What replacing a file takes and what it does. -/
theorem replace_eq_ok {fs saved : FileSystem} {path : String} {content : ByteArray}
    (h : fs.replace path content = .ok saved) :
    ∃ directory entries name, stepsOf path = leadingSteps path ++ [.into name]
      ∧ fs.walkFrom path true (leadingSteps path) = .ok (.node directory (.directory entries))
      ∧ ¬ nameLimit < name.utf8ByteSize
      ∧ (∀ inside, Keyed.find? name entries ≠ some (.directory inside))
      ∧ saved = fs.put directory name (.file content) := by
  unfold FileSystem.replace at h
  simp only at h
  split at h
  · cases h
  · cases h
  · next directory entries hwalk =>
      split at h
      · next name hlast =>
          split at h
          · cases h
          · next hname =>
              split at h
              · cases h
              · next hslash =>
                  have hsteps : stepsOf path = leadingSteps path ++ [.into name] := by
                    rw [stepsOf, if_neg hslash, List.append_nil]
                    exact (List.dropLast_append_getLast? _ hlast).symm
                  refine ⟨directory, entries, name, hsteps, hwalk, hname, ?_⟩
                  split at h
                  · cases h
                  · next hfree => exact ⟨hfree, (Except.ok.inj h).symm⟩
      · cases h
  · cases h

theorem read_eq_ok_iff {fs : FileSystem} {path : String} {content : ByteArray} :
    fs.read path = .ok content
      ↔ ∃ place, fs.walkFrom path true (stepsOf path) = .ok (.node place (.file content)) := by
  unfold FileSystem.read FileSystem.node FileSystem.find
  cases fs.walkFrom path true (stepsOf path) with
  | error e => simp
  | ok found =>
      cases found with
      | vacant directory name => simp
      | node place node => cases node <;> simp

/-- A file that was put in the place of a path is read through the path, unless it cut the
path's own way off. -/
theorem read_replace_iff {fs saved : FileSystem} {path : String} {content : ByteArray}
    (h : fs.replace path content = .ok saved) :
    saved.read path = .ok content ↔ Reaches saved path := by
  obtain ⟨directory, entries, name, hsteps, hwalk, hname, -, rfl⟩ := replace_eq_ok h
  obtain ⟨husable, ⟨left, hbefore⟩, hdirectory⟩ := walkFrom_eq_ok_iff.1 hwalk
  have hself := lookUp_put_self hdirectory name content
  rw [read_eq_ok_iff, hsteps]
  constructor
  · rintro ⟨place, hfile⟩
    obtain ⟨_, ⟨_, hleads⟩, _⟩ := walkFrom_eq_ok_iff.1 hfile
    obtain ⟨through, mid, hleading, hlast⟩ := hleads.split
    have hdir : DirectoryAt (fs.put directory name (.file content)).root through := by
      cases hlast with
      | into hdir _ _ _ _ | link hdir _ _ _ => exact hdir
    obtain ⟨others, hothers⟩ := hdir
    exact ⟨through, others, walkFrom_eq_ok_iff.2 ⟨husable, ⟨mid, hleading⟩, hothers⟩⟩
  · rintro ⟨place, others, hreaches⟩
    obtain ⟨_, ⟨after, hafter⟩, hplace⟩ := walkFrom_eq_ok_iff.1 hreaches
    -- the way leads where it led before, which is where the file was put
    have hsame : place = directory := by
      have hdir : DirectoryAt (fs.put directory name (.file content)).root place :=
        ⟨others, hplace⟩
      obtain ⟨old, hold⟩ := hdir.before_put hdirectory name content
      have hearlier := hafter.before_put hdirectory name content hdir
      have hagain : fs.walkFrom path true (leadingSteps path)
          = .ok (.node place (.directory old)) :=
        walkFrom_eq_ok_iff.2 ⟨husable, ⟨after, hearlier⟩, hold⟩
      rw [hwalk] at hagain
      cases hagain
      rfl
    subst hsame
    have hinto : Leads (fs.put place name (.file content)).root after place [.into name]
        (name :: place) after :=
      .into ⟨others, hplace⟩ hname hself (by simp) .arrived
    exact ⟨name :: place, walkFrom_eq_ok_iff.2 ⟨husable, ⟨after, hafter.append hinto⟩, hself⟩⟩

end WikiPress.Files
