import WikiPress.Storage.Writer

/-!
# WikiPress.Sync.Document

The documents of a tree, each of which becomes one page.
-/

namespace WikiPress.Sync

/-- Where a document's Markdown comes from. -/
inductive Source
  | file (path : String)
  /-- The index of a directory without an index file, which is empty. -/
  | virtual
  deriving DecidableEq, Repr

/-- A document and its place in the page tree. -/
structure Document where
  source : Source
  /-- The path from the root of the tree, with slashes. -/
  identity : String
  title : String
  /-- Whether the document is its directory's index. -/
  isIndex : Bool
  /-- The title of the page above. -/
  parentTitle : String
  /-- The identity of the document above; empty for the root. -/
  parentIdentity : String
  /-- How many pages are above. -/
  level : Nat
  /-- The paths of the files published with the page. -/
  attachments : List String
  deriving DecidableEq, Repr

/-- The context a document is rendered in. -/
def Document.context (document : Document) : Storage.Context :=
  { parentTitle := document.parentTitle, isIndex := document.isIndex }

/-- The file a document comes from. -/
def Document.path (document : Document) : Option String :=
  match document.source with
  | .file path => some path
  | .virtual => none

/-- The order of publication: parents before children, and by identity within a
level. -/
def Document.precedes (a b : Document) : Bool :=
  a.level < b.level || (a.level == b.level && a.identity ≤ b.identity)

/-- Documents in the order of publication. Documents that come equal keep their order. -/
def inOrder (documents : List Document) : List Document :=
  documents.mergeSort Document.precedes

end WikiPress.Sync
