import Mathlib.Logic.Relation
import WikiPress.Proofs.Files.Growth

/-!
# WikiPress.Proofs.Files.Making

What creating directories adds to a tree.

Design points:

* Trees are compared place by place. A place is made of names alone, so what is said of one
  does not depend on links.
* Directories are created one after another (`Makes`), whether or not all of them can be. Links
  are never created and files never touched on the way, so every path that was read is read as
  before (`Grown.read`).
-/

namespace WikiPress.Files

open Relation (ReflTransGen)

/-! ## Directories that are created -/

/-- Whether nothing but directories was added to a tree, and only where some paths lead. -/
structure Grown (paths : List String) (before after : FileSystem) : Prop where
  workingDirectory : after.workingDirectory = before.workingDirectory
  /-- What was there is there, a file with its content. -/
  kept : ∀ place node, lookUp before.root place = some node →
    ∃ later, lookUp after.root place = some later ∧ Alike node later
  /-- What is new is a directory on the way. -/
  added : ∀ place node, lookUp before.root place = none → lookUp after.root place = some node →
    node.isDirectory = true ∧ ∃ path ∈ paths, ∃ left, At after path place left

namespace Grown

variable {paths : List String} {before between after : FileSystem}

theorem refl (paths : List String) (fs : FileSystem) : Grown paths fs fs where
  workingDirectory := rfl
  kept _ node h := ⟨node, h, .refl node⟩
  added _ _ hnone hsome := by rw [hnone] at hsome; cases hsome

theorem toExtends (h : Grown paths before after) : Extends before.root after.root := by
  intro place node hnode
  obtain ⟨later, hlater, halike⟩ := h.kept place node hnode
  exact ⟨later, hlater, halike.sameKind⟩

theorem trans (h : Grown paths before between) (h' : Grown paths between after) :
    Grown paths before after where
  workingDirectory := h'.workingDirectory.trans h.workingDirectory
  kept place node hnode := by
    obtain ⟨middle, hmiddle, halike⟩ := h.kept place node hnode
    obtain ⟨later, hlater, halike'⟩ := h'.kept place middle hmiddle
    exact ⟨later, hlater, halike.trans halike'⟩
  added place node hnone hsome := by
    cases hmiddle : lookUp between.root place with
    | none => exact h'.added place node hmiddle hsome
    | some middle =>
        -- a directory that was added first is still there
        obtain ⟨hdirectory, path, hpath, left, hat⟩ := h.added place middle hnone hmiddle
        obtain ⟨later, hlater, halike⟩ := h'.kept place middle hmiddle
        obtain rfl := Option.some.inj (hsome.symm.trans hlater)
        obtain ⟨entries, rfl⟩ := Node.isDirectory_iff.1 hdirectory
        cases halike
        exact ⟨rfl, path, hpath, left, hat.extend h'.toExtends h'.workingDirectory⟩

/-- Trees that are the same at every place. -/
theorem of_alike (paths : List String)
    (hworking : after.workingDirectory = before.workingDirectory)
    (h : ∀ place, Option.Rel Alike (lookUp before.root place) (lookUp after.root place)) :
    Grown paths before after where
  workingDirectory := hworking
  kept place _ hnode := exists_alike hnode (h place)
  added place node hnone hsome := by
    have halike := h place
    rw [hnone, hsome] at halike
    cases halike

/-- What was read is read as before. -/
theorem read (h : Grown paths before after) {path : String} {content : ByteArray}
    (hread : before.read path = .ok content) : after.read path = .ok content := by
  rw [read_eq_ok_iff] at hread ⊢
  obtain ⟨place, hwalk⟩ := hread
  obtain ⟨husable, ⟨left, hleads⟩, hfile⟩ := walkFrom_eq_ok_iff.1 hwalk
  obtain ⟨later, hlater, halike⟩ := h.kept place _ hfile
  cases halike
  refine ⟨place, walkFrom_eq_ok_iff.2 ⟨husable, ⟨left, ?_⟩, hlater⟩⟩
  rw [FileSystem.startOf, h.workingDirectory]
  exact hleads.extend h.toExtends

end Grown

/-- Whether directories were created one after another, at some of the paths. -/
def Makes (paths : List String) : FileSystem → FileSystem → Prop :=
  ReflTransGen fun before after => ∃ path ∈ paths, before.makeDirectory path = .ok after

theorem grown_of_makeDirectory {fs made : FileSystem} {path : String} {paths : List String}
    (h : fs.makeDirectory path = .ok made) (hpath : path ∈ paths) : Grown paths fs made := by
  obtain ⟨directory, name, entries, hentries, hfree, rfl, left, hat⟩ := makeDirectory_eq_ok h
  refine ⟨rfl, fun place node hnode => ?_, fun place node hnone hsome => ?_⟩
  · by_cases hplace : name :: directory <:+ place
    · obtain ⟨below, rfl⟩ := hplace
      rw [lookUp_below hentries, hfree] at hnode
      cases hnode
    · exact exists_alike hnode (lookUp_put_elsewhere name (.directory []) hplace)
  · by_cases hplace : name :: directory <:+ place
    · obtain ⟨below, rfl⟩ := hplace
      rw [lookUp_put_below hentries] at hsome
      cases hbelow : below.reverse with
      | nil =>
          rw [hbelow] at hsome
          cases hsome
          rw [List.reverse_eq_nil_iff] at hbelow
          subst hbelow
          exact ⟨rfl, path, hpath, left, hat⟩
      | cons first rest =>
          rw [hbelow] at hsome
          cases hsome
    · have halike : Option.Rel Alike (lookUp fs.root place)
          (lookUp (fs.put directory name (.directory [])).root place) :=
        lookUp_put_elsewhere name _ hplace
      rw [hnone, hsome] at halike
      cases halike

theorem Makes.grown {paths : List String} {fs made : FileSystem} (h : Makes paths fs made) :
    Grown paths fs made := by
  induction h with
  | refl => exact .refl paths fs
  | tail _ hmake ih =>
      obtain ⟨path, hpath, hmake⟩ := hmake
      exact ih.trans (grown_of_makeDirectory hmake hpath)

theorem Makes.mono {paths more : List String} (hsubset : paths ⊆ more) {fs made : FileSystem}
    (h : Makes paths fs made) : Makes more fs made := by
  induction h with
  | refl => exact .refl
  | tail _ hmake ih =>
      obtain ⟨path, hpath, hmake⟩ := hmake
      exact ih.tail ⟨path, hsubset hpath, hmake⟩

/-- Whether all of them can be created or not. -/
theorem makes_makeMissing (fs : FileSystem) (paths : List String) :
    Makes paths fs (fs.makeMissing paths).2 := by
  induction paths generalizing fs with
  | nil => exact .refl
  | cons path outer ih =>
      have houter := (ih fs).mono (List.subset_cons_self path outer)
      rw [FileSystem.makeMissing]
      split
      · next made hmake => exact .single ⟨path, List.mem_cons_self, hmake⟩
      · split
        · next partway hpartway =>
            rw [hpartway] at houter
            exact houter
        · next under hunder =>
            rw [hunder] at houter
            split
            · next made hmake => exact houter.tail ⟨path, List.mem_cons_self, hmake⟩
            · split <;> exact houter
      · split <;> exact .refl

/-- What each new directory keeps holds once a path is there, as far as it could be created. -/
theorem makeDirectories_keeps {P : FileSystem → Prop} {fs : FileSystem} {path : String}
    (hmake : ∀ before after outer, P before → outer ∈ ancestors path →
      before.makeDirectory outer = .ok after → P after) (h : P fs) :
    P (fs.makeDirectories path).2 := by
  have hmakes : Makes (ancestors path) fs (fs.makeDirectories path).2 := makes_makeMissing fs _
  generalize (fs.makeDirectories path).2 = made at hmakes ⊢
  induction hmakes with
  | refl => exact h
  | tail _ hstep ih =>
      obtain ⟨outer, houter, hmade⟩ := hstep
      exact hmake _ _ outer ih houter hmade

end WikiPress.Files
