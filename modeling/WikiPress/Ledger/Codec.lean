import WikiPress.Json.Printer
import WikiPress.Json.Reader
import WikiPress.Ledger.Entry

/-!
# WikiPress.Ledger.Codec

The entries of a ledger as a JSON document: one object with a member for each identity.

Design points:

* An entry is an object. Members it does not know are skipped, members it lacks are
  empty, and a member it knows may come only once. An entry may also be an array of its
  texts in the order of the fields, cut short where the rest is empty.
* When an identity comes twice, the last entry counts.
-/

namespace WikiPress.Ledger

open WikiPress.Json (Value)

/-- A text, if a value is one. -/
def textOf : Value → Option String
  | .text content => content
  | _ => none

/-- An entry with one more field known: none if the name or the value is unusable. The
fields met so far are the ones that are some. -/
def readField (known : List (String × String)) (member : Option String × Value) :
    Option (List (String × String)) := do
  let name ← member.1
  if name = "id" ∨ name = "hash" ∨ name = "parentId" then
    if (known.lookup name).isSome then none
    else some ((name, ← textOf member.2) :: known)
  else some known

/-- The entry with the given fields. -/
def entryOfFields (fields : List (String × String)) : Entry where
  id := (fields.lookup "id").getD ""
  hash := (fields.lookup "hash").getD ""
  parentId := (fields.lookup "parentId").getD ""

/-- The entry a value describes. -/
def readEntry : Value → Option Entry
  | .object members => (members.foldlM readField []).map entryOfFields
  | .array items => do
      match ← items.mapM textOf with
      | [] => some {}
      | [id] => some { id }
      | [id, hash] => some { id, hash }
      | [id, hash, parentId] => some { id, hash, parentId }
      | _ => none
  | _ => none

/-- The entries a value describes. -/
def readEntries : Value → Option Entries
  | .object members =>
      members.foldlM (fun entries (name, value) => do
        let identity ← name
        let entry ← readEntry value
        some (Keyed.set identity entry entries)) []
  | _ => none

/-- The entries of a document. -/
def decode (document : ByteArray) : Option Entries := do
  readEntries (← Json.parse document)

/-- The value that describes an entry. -/
def entryValue (entry : Entry) : Value :=
  .object [(some "id", .text (some entry.id)), (some "hash", .text (some entry.hash)),
    (some "parentId", .text (some entry.parentId))]

/-- The document of some entries. -/
def encode (entries : Entries) : String :=
  Json.print 4 (.object (entries.map fun (identity, entry) =>
    (some identity, entryValue entry)))

end WikiPress.Ledger
