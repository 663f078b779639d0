import Mathlib.Data.Finmap
import Mathlib.Data.Finset.Sort
import WikiPress.Proofs.Ledger.Store

/-!
# WikiPress.Proofs.Ledger.StateFile

A state file holds all that its ledger holds.

Design points:

* What a ledger holds is a finite map, of which the list of its entries is the one with
  ascending identities (`Keyed.ofFinmap`). Any text may be an identity here, the empty one
  included, whether or not a document can have it.
* The file is read back as this list. If it were not, the ledger would start empty, and every
  page would be created again.
-/

namespace WikiPress

/-! ## Finite maps as ascending lists -/

namespace Keyed

variable {α : Type}

/-- The pairs of a finite map, by key. -/
def ofFinmap (content : Finmap fun _ : String => α) : Keyed α :=
  (content.keys.sort (· ≤ ·)).filterMap fun key => (content.lookup key).map (Prod.mk key)

theorem ascending_ofFinmap (content : Finmap fun _ : String => α) :
    Ascending (ofFinmap content) := by
  refine List.pairwise_filterMap.2 (content.keys.sortedLT_sort.pairwise.imp ?_)
  intro first second hlt pair hpair other hother
  obtain ⟨_, _, rfl⟩ := Option.map_eq_some_iff.1 hpair
  obtain ⟨_, _, rfl⟩ := Option.map_eq_some_iff.1 hother
  exact hlt

theorem mem_ofFinmap {content : Finmap fun _ : String => α} {key : String} {value : α} :
    (key, value) ∈ ofFinmap content ↔ content.lookup key = some value := by
  unfold ofFinmap
  rw [List.mem_filterMap]
  refine ⟨fun ⟨k, _, hpair⟩ => ?_, fun hlookup => ⟨key, ?_, ?_⟩⟩
  · obtain ⟨_, hlookup, heq⟩ := Option.map_eq_some_iff.1 hpair
    cases heq
    exact hlookup
  · rw [Finset.mem_sort, Finmap.mem_keys, ← Finmap.lookup_isSome, hlookup]
    rfl
  · rw [hlookup]
    rfl

/-- A key has the value the map gives it, if it gives it one. -/
theorem find?_ofFinmap (content : Finmap fun _ : String => α) (key : String) :
    find? key (ofFinmap content) = content.lookup key := by
  refine Option.ext fun value => ?_
  rw [find?_eq_some_iff (ascending_ofFinmap content), mem_ofFinmap]

end Keyed

/-! ## Saving and loading -/

namespace Ledger

open WikiPress.Files (FileSystem Reaches)

/-- **What is saved is loaded again.** Whatever a ledger holds, its document is read as that very
map from identities to entries. So it is from any file it is the content of, which is never
taken for an unusable one, and what is loaded has the same document. -/
theorem load_of_encode (content : Finmap fun _ : String => Entry) :
    let entries := Keyed.ofFinmap content
    let document := (encode entries).toUTF8
    (∀ identity, Keyed.find? identity entries = content.lookup identity)
      ∧ decode document = some entries
      ∧ (∀ fs path, fs.read path = .ok document →
        load fs path = ⟨{ path, entries }, false⟩
          ∧ (encode (load fs path).ledger.entries).toUTF8 = document)
      ∧ ∀ (ledger : Ledger) fs saved, ledger.entries = entries →
        ledger.persist fs = (.ok (), saved) → Reaches saved ledger.path →
        load saved ledger.path = ⟨{ path := ledger.path, entries }, false⟩ := by
  intro entries document
  have hordered : Keyed.Ascending entries := Keyed.ascending_ofFinmap content
  refine ⟨Keyed.find?_ofFinmap content, decode_encode hordered, fun fs path hread => ?_,
    fun ledger fs saved hentries hsaved hreaches => ?_⟩
  · have hload : load fs path = ⟨{ path, entries }, false⟩ := load_of_read hordered hread
    exact ⟨hload, by rw [hload]⟩
  · rw [← hentries] at hordered ⊢
    exact load_persist hordered hsaved hreaches

/-! ## A directory to save ledgers in -/

/-- A directory with nothing in it. -/
def bare : FileSystem := { root := .directory [], workingDirectory := [] }

/-- Steps that stay lead to the directory. -/
theorem walkFrom_bare {path : String} (husable : Files.Usable path)
    (hrelative : Files.isAbsolute path = false) (follow : Bool) {steps : List Files.Step}
    (hsteps : ∀ step ∈ steps, step = .stay) :
    bare.walkFrom path follow steps = .ok (.node [] bare.root) := by
  unfold FileSystem.walkFrom
  rw [if_neg (Bool.eq_false_iff.1 husable.1), if_neg (Bool.eq_false_iff.1 husable.2),
    if_neg (Bool.eq_false_iff.1 hrelative)]
  show Files.walk bare.root follow Files.linkLimit [] bare.root steps = _
  induction steps with
  | nil => rw [Files.walk]
  | cons step rest ih =>
      obtain ⟨rfl, hrest⟩ := List.forall_mem_cons.1 hsteps
      rw [Files.walk]
      exact (if_pos rfl).trans (ih hrest)

theorem makeDirectories_bare : bare.makeDirectories "." = (.ok (), bare) := by
  have hancestors : Files.ancestors "." = ["."] := by decide
  have hwalk : ∀ follow, bare.walkFrom "." follow [.stay] = .ok (.node [] bare.root) :=
    fun follow => walkFrom_bare ⟨by decide, by decide⟩ (by decide) follow (by simp)
  have hmake : bare.makeDirectory "." = .error .alreadyExists := by
    have htrimmed : (Text.segmentsOf (".".toList.reverse.dropWhile (· = '/')).reverse).filterMap
        Files.stepOf = [.stay] := by decide
    unfold FileSystem.makeDirectory
    simp only [htrimmed, hwalk]
  have hdirectory : bare.isDirectory "." = true := by
    have hsteps : Files.stepsOf "." = [.stay] := by decide
    rw [FileSystem.isDirectory, FileSystem.node, FileSystem.find, hsteps, hwalk]
    rfl
  rw [FileSystem.makeDirectories, hancestors, FileSystem.makeMissing, hmake]
  simp [hdirectory]

theorem persist_bare (entries : Entries) :
    persist { path := "state.json", entries } bare
      = (.ok (), bare.put [] "state.json" (.file (encode entries).toUTF8)) := by
  have hdirectory : directoryOf "state.json" = "." := by decide
  have hsteps : (Text.segmentsOf "state.json".toList).filterMap Files.stepOf
      = [.into "state.json"] := by decide
  have hwalk : bare.walkFrom "state.json" true [] = .ok (.node [] bare.root) :=
    walkFrom_bare ⟨by decide, by decide⟩ (by decide) true (List.forall_mem_nil _)
  have hreplace : ∀ content, bare.replace "state.json" content
      = .ok (bare.put [] "state.json" (.file content)) := by
    intro content
    unfold FileSystem.replace
    simp only [hsteps, List.dropLast_singleton, hwalk]
    rfl
  unfold persist
  simp only [hdirectory, makeDirectories_bare, hreplace]

/-- Texts that are hard to write: an empty one, quotes and backslashes, control characters, and
characters beyond the first plane. -/
theorem load_of_encode_hard_texts :
    let content : Finmap fun _ : String => Entry := [⟨"", { id := "\"\\" }⟩,
      ⟨"\"a\\b\"", { id := "\x00\x1f\x7f", hash := "\n\t\x08" }⟩,
      ⟨"\x01𝄞/😀", { id := "\ud7ff\ue000", parentId := "𐀀" }⟩].toFinmap
    let entries := Keyed.ofFinmap content
    let document := (encode entries).toUTF8
    let saved := bare.put [] "state.json" (.file document)
    content.lookup "" = some { id := "\"\\" }
      ∧ content.lookup "\x01𝄞/😀" = some { id := "\ud7ff\ue000", parentId := "𐀀" }
      ∧ persist { path := "state.json", entries } bare = (.ok (), saved)
      ∧ Reaches saved "state.json" ∧ saved.read "state.json" = .ok document
      ∧ (∀ identity, Keyed.find? identity entries = content.lookup identity)
      ∧ decode document = some entries
      ∧ load saved "state.json" = ⟨{ path := "state.json", entries }, false⟩
      ∧ (encode (load saved "state.json").ledger.entries).toUTF8 = document := by
  intro content entries document saved
  have hsaved : persist { path := "state.json", entries } bare = (.ok (), saved) :=
    persist_bare entries
  have hreaches : Reaches saved "state.json" := by
    have hleading : Files.leadingSteps "state.json" = [] := by decide
    refine ⟨[], [("state.json", .file document)], ?_⟩
    rw [hleading]
    exact Files.walkFrom_eq_ok_iff.2 ⟨⟨by decide, by decide⟩, ⟨_, .arrived⟩, rfl⟩
  have hread : saved.read "state.json" = .ok document := read_persist hsaved hreaches
  obtain ⟨hlookup, hdecode, hload, _⟩ := load_of_encode content
  obtain ⟨hloaded, hagain⟩ := hload saved "state.json" hread
  exact ⟨by decide, by decide, hsaved, hreaches, hread, hlookup, hdecode, hloaded, hagain⟩

end Ledger

end WikiPress
