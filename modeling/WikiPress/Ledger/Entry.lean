import WikiPress.Digest
import WikiPress.Keyed

/-!
# WikiPress.Ledger.Entry

What is remembered about a published document.
-/

namespace WikiPress

/-- The state of a document at its last publication. A document that was never published
has the empty entry. -/
structure Entry where
  /-- The id of the document's page. -/
  id : String := ""
  /-- The digest of the page's body. -/
  hash : String := ""
  /-- The id of the page above. -/
  parentId : String := ""
  deriving DecidableEq, Repr, Inhabited

/-- Whether the document was never published. -/
def Entry.isNew (entry : Entry) : Bool :=
  entry.id.isEmpty

/-- Whether some content differs from what was published, judged by its digest. -/
def Entry.hasChanged (entry : Entry) (content : ByteArray) : Bool :=
  Digest.hex content ≠ entry.hash

/-- The entries of documents, by identity. -/
abbrev Entries := Keyed Entry

end WikiPress
