import WikiPress.Files.System

/-!
# WikiPress.Sync.Publisher

Where pages go.

A publisher is whatever takes drafts: it creates the page of a draft that has none,
updates the page of a draft that has one, and answers with the page's id or refuses.

Design points:

* A publisher has a state of its own type, which a publication changes whether it
  succeeds or not.
* Documents are read from the same state, so that a publisher that writes files is seen
  to do so by the documents after it.
-/

namespace WikiPress.Sync

open WikiPress.Files (FileSystem FileError)

/-- A page ready to be published. -/
structure Draft where
  /-- The document's identity. -/
  identity : String
  title : String
  /-- The id of the page above; empty at the top. -/
  parentId : String
  /-- The id of the page to update; none for a new page. -/
  pageId : Option String
  body : String
  /-- The paths of the files to publish with the page. -/
  attachments : List String
  deriving DecidableEq, Repr

/-- Why a draft was not published. -/
inductive PublishError
  | io (path : String) (cause : FileError)
  | rejected (reason : String)
  deriving DecidableEq, Repr

/-- What is said about a draft that was not published. -/
def PublishError.message : PublishError → String
  | .io path cause => s!"I/O error at {path}: {cause.message}"
  | .rejected reason => s!"Page rejected: {reason}"

/-- Something that takes drafts, with a state of type `σ`. -/
structure Publisher (σ : Type) where
  /-- The files documents are read from. -/
  files : σ → FileSystem
  /-- Publishes a draft: the page's id and the state afterwards. -/
  publish : Draft → σ → Except PublishError String × σ

end WikiPress.Sync
