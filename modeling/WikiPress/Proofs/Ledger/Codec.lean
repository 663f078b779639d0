import WikiPress.Ledger.Codec
import WikiPress.Proofs.Json.RoundTrip
import WikiPress.Proofs.Keyed

/-!
# WikiPress.Proofs.Ledger.Codec

The document of some entries describes these entries.

Design points:

* Entries come back in one piece, ids, digests and parents alike, because a member is
  written for every field and read by its name.
* Reading sets the entries one after another, so the law is for maps whose identities
  ascend; it is what every ledger has (`ascending_decode`).
-/

namespace WikiPress.Ledger

open WikiPress.Json (Value ItemsNumberless MembersNumberless)

/-- The member of an identity. -/
def memberOf (pair : String × Entry) : Option String × Value :=
  (some pair.1, entryValue pair.2)

theorem entryValue_numberless (entry : Entry) : (entryValue entry).Numberless := by
  simp [entryValue, Value.Numberless, MembersNumberless]

theorem members_numberless (entries : Entries) : MembersNumberless (entries.map memberOf) := by
  induction entries with
  | nil => trivial
  | cons pair rest ih => exact ⟨entryValue_numberless pair.2, ih⟩

/-- An entry is read as it was described. -/
theorem readEntry_entryValue (entry : Entry) : readEntry (entryValue entry) = some entry := by
  obtain ⟨id, hash, parentId⟩ := entry
  rfl

/-- Reading an identity's member sets its entry. -/
theorem readEntries_members (entries : Entries) :
    readEntries (.object (entries.map memberOf))
      = some (entries.foldl (fun m pair => Keyed.set pair.1 pair.2 m) []) := by
  rw [readEntries]
  generalize ([] : Entries) = done
  induction entries generalizing done with
  | nil => rfl
  | cons pair rest ih =>
      rw [List.map_cons, List.foldlM_cons, List.foldl_cons]
      simp only [memberOf, readEntry_entryValue, Option.bind_some, Option.bind_eq_bind]
      exact ih _

/-- The entries of a document are read as they were written. -/
theorem decode_encode {entries : Entries} (h : Keyed.Ascending entries) :
    decode (encode entries).toUTF8 = some entries := by
  have hvalue : (Value.object (entries.map memberOf)).Numberless := members_numberless entries
  have hfold : entries.foldl (fun m pair => Keyed.set pair.1 pair.2 m) [] = [] ++ entries :=
    Keyed.foldl_set h
  rw [decode, encode]
  show (Json.parse (Json.print 4 (.object (entries.map memberOf))).toUTF8).bind readEntries
    = some entries
  rw [Json.parse_print hvalue, Option.bind_some, readEntries_members, hfold, List.nil_append]

/-- The identities of a document's entries ascend, in whatever order they are written. -/
theorem ascending_decode {document : ByteArray} {entries : Entries}
    (h : decode document = some entries) : Keyed.Ascending entries := by
  obtain ⟨value, hvalue, hread⟩ := Option.bind_eq_some_iff.1 h
  clear h hvalue
  cases value with
  | object members =>
      rw [readEntries] at hread
      -- they do in what is read so far, to which each member adds an entry
      have hdone : Keyed.Ascending ([] : Entries) := Keyed.ascending_nil
      generalize ([] : Entries) = done at hread hdone
      induction members generalizing done with
      | nil =>
          obtain rfl : done = entries := Option.some.inj hread
          exact hdone
      | cons member rest ih =>
          obtain ⟨next, hmember, hrest⟩ := Option.bind_eq_some_iff.1 hread
          obtain ⟨identity, _, hentry⟩ := Option.bind_eq_some_iff.1 hmember
          obtain ⟨entry, _, hset⟩ := Option.bind_eq_some_iff.1 hentry
          obtain rfl : Keyed.set identity entry done = next := Option.some.inj hset
          exact ih _ hrest (Keyed.ascending_set hdone identity entry)
  | _ => cases hread

end WikiPress.Ledger
