import WikiPress.Ledger.Store
import WikiPress.Proofs.Files.Replace
import WikiPress.Proofs.Ledger.Codec

/-!
# WikiPress.Proofs.Ledger.Store

Ledgers over the time of one process and across processes.

Design points:

* What a ledger says about documents is `entry`, in which a missing entry and an empty one
  are the same. Asking for an entry, which may make an empty one, changes nothing there
  (`entry_entryFor`).
* Every change of a ledger sets an entry, so its identities ascend for good.
* A ledger that was saved is loaded as it was, as long as the directory of its state file
  can still be reached.
-/

namespace WikiPress.Ledger

open WikiPress.Files (FileSystem Reaches)

variable {ledger : Ledger} {identity other : String} {value : Entry}

/-! ## Entries -/

/-- Whether a ledger has an entry for an identity, be it an empty one. -/
def Has (ledger : Ledger) (identity : String) : Prop :=
  (Keyed.find? identity ledger.entries).isSome

/-- An entry is told by what it says and by whether it is there. -/
theorem find?_eq_of_entry {ledger other : Ledger} {identity : String}
    (hhas : ledger.Has identity ↔ other.Has identity)
    (hentry : ledger.entry identity = other.entry identity) :
    Keyed.find? identity ledger.entries = Keyed.find? identity other.entries := by
  unfold Has at hhas
  unfold entry at hentry
  cases h : Keyed.find? identity ledger.entries <;>
    cases h' : Keyed.find? identity other.entries <;> simp_all

/-- What is said about a document after its entry is set. -/
theorem getD_find?_set (entries : Entries) :
    (Keyed.find? other (Keyed.set identity value entries)).getD {}
      = if other = identity then value else (Keyed.find? other entries).getD {} := by
  by_cases h : other = identity
  · rw [h, if_pos rfl, Keyed.find?_set_self]
    rfl
  · rw [if_neg h, Keyed.find?_set_of_ne h]

/-- Asking for an entry changes nothing that is said about documents. -/
theorem entry_entryFor (ledger : Ledger) (identity other : String) :
    (ledger.entryFor identity).2.entry other = ledger.entry other := by
  unfold entryFor
  split
  · rfl
  · show (Keyed.find? other (Keyed.set identity (ledger.entry identity) ledger.entries)).getD {} = _
    rw [getD_find?_set]
    split
    · next h => rw [h]
    · rfl

theorem path_entryFor (ledger : Ledger) (identity : String) :
    (ledger.entryFor identity).2.path = ledger.path := by
  unfold entryFor
  split <;> rfl

theorem ascending_entryFor (h : Keyed.Ascending ledger.entries) (identity : String) :
    Keyed.Ascending (ledger.entryFor identity).2.entries := by
  unfold entryFor
  split
  · exact h
  · exact Keyed.ascending_set h _ _

/-- Asking for the entry of a document changes the entries alone. -/
theorem entryFor_of_named (h : identity ≠ "") :
    ledger.entryFor identity = (.document identity,
      { ledger with entries := Keyed.set identity (ledger.entry identity) ledger.entries }) := by
  have hempty : identity.isEmpty = false := by simpa using h
  rw [entryFor, hempty]
  rfl

theorem entryFor_handle (h : identity ≠ "") :
    (ledger.entryFor identity).1 = .document identity := by
  rw [entryFor_of_named h]

/-- The entry that is asked for is there from then on. -/
theorem has_entryFor (h : identity ≠ "") :
    (ledger.entryFor identity).2.Has other ↔ ledger.Has other ∨ other = identity := by
  rw [entryFor_of_named h]
  exact Keyed.isSome_find?_set

/-- Asking for an entry that is there changes nothing. -/
theorem entryFor_of_find? (hordered : Keyed.Ascending ledger.entries)
    (h : Keyed.find? identity ledger.entries = some value) (hidentity : identity ≠ "") :
    ledger.entryFor identity = (.document identity, ledger) := by
  have hentry : ledger.entry identity = value := by rw [entry, h, Option.getD_some]
  rw [entryFor_of_named hidentity, hentry, Keyed.set_of_find? hordered h]

/-- The entry of a document that is published has the new contents, the others theirs. -/
theorem entry_commit (ledger : Ledger) (identity other : String) (value : Entry) :
    (ledger.commit (.document identity) value).entry other
      = if other = identity then value else ledger.entry other :=
  getD_find?_set ledger.entries

theorem has_commit (ledger : Ledger) (identity other : String) (value : Entry) :
    (ledger.commit (.document identity) value).Has other ↔ ledger.Has other ∨ other = identity :=
  Keyed.isSome_find?_set

theorem ascending_commit (h : Keyed.Ascending ledger.entries) (identity : String)
    (value : Entry) : Keyed.Ascending (ledger.commit (.document identity) value).entries :=
  Keyed.ascending_set h _ _

/-- An entry that says something is there. -/
theorem find?_of_entry (h : (ledger.entry identity).id ≠ "") :
    Keyed.find? identity ledger.entries = some (ledger.entry identity) := by
  unfold entry at h ⊢
  cases hfind : Keyed.find? identity ledger.entries with
  | none =>
      rw [hfind] at h
      exact absurd rfl h
  | some value => rfl

/-- An entry that says nothing is missing or empty. -/
theorem find?_of_entry_eq (h : ledger.entry identity = {}) :
    Keyed.find? identity ledger.entries = none ∨ Keyed.find? identity ledger.entries = some {} := by
  unfold entry at h
  cases hfind : Keyed.find? identity ledger.entries with
  | none => exact Or.inl rfl
  | some value =>
      rw [hfind] at h
      exact Or.inr (congrArg some h)

/-! ## The state file -/

theorem path_load (fs : FileSystem) (path : String) : (load fs path).ledger.path = path := by
  unfold load
  split
  · rfl
  · split <;> rfl

/-- Whatever its state file is like, a ledger starts with its identities in order. -/
theorem ascending_load (fs : FileSystem) (path : String) :
    Keyed.Ascending (load fs path).ledger.entries := by
  unfold load
  split
  · exact Keyed.ascending_nil
  · split
    · next hdecode => exact ascending_decode hdecode
    · exact Keyed.ascending_nil

/-- A ledger that was saved is what its state file holds, where the file can be reached. -/
theorem read_persist {ledger : Ledger} {fs saved : FileSystem}
    (hsaved : ledger.persist fs = (.ok (), saved)) (hreaches : Reaches saved ledger.path) :
    saved.read ledger.path = .ok (encode ledger.entries).toUTF8 := by
  unfold persist at hsaved
  split at hsaved
  · cases hsaved
  · split at hsaved
    · cases hsaved
    · next replaced hreplace =>
        cases hsaved
        exact (Files.read_replace_iff hreplace).2 hreaches

/-- A file with the document of some entries is loaded as these entries. -/
theorem load_of_read {entries : Entries} (hordered : Keyed.Ascending entries) {fs : FileSystem}
    {path : String} (hread : fs.read path = .ok (encode entries).toUTF8) :
    load fs path = ⟨{ path, entries }, false⟩ := by
  unfold load
  rw [hread]
  simp only [decode_encode hordered]

/-- A ledger that was saved is read again, entry by entry. -/
theorem load_persist {ledger : Ledger} {fs saved : FileSystem}
    (hordered : Keyed.Ascending ledger.entries) (hsaved : ledger.persist fs = (.ok (), saved))
    (hreaches : Reaches saved ledger.path) :
    load saved ledger.path = ⟨{ path := ledger.path, entries := ledger.entries }, false⟩ :=
  load_of_read hordered (read_persist hsaved hreaches)

end WikiPress.Ledger
