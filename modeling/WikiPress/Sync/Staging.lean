import WikiPress.Files.Effect
import WikiPress.Json.Printer
import WikiPress.Sync.Publisher

/-!
# WikiPress.Sync.Staging

A publisher that puts pages into a directory, for a later step to upload.

Each page has a directory named by its id, with the body in `page.xml`, the title, the
parent's id and the identity in `page.json`, and the attached files in `attachments`.

Design points:

* Ids of new pages come from a row of ids given in advance; the state counts how many
  are used up. An id is used up even if its page then cannot be written.
* A page's files are written one after another. A failure leaves the ones written
  before it.
-/

namespace WikiPress.Sync

open WikiPress.Files (FileSystem FileError Effect join fileName change makeDirectories)

/-- A directory pages are staged in. -/
structure StagingArea where
  directory : String
  /-- The ids for new pages, in the order they are given out. -/
  newId : Nat → String

/-- The files, and how many ids are given out. -/
structure StagingState where
  files : FileSystem
  used : Nat

/-- Writes a file. -/
def writeFile (path content : String) : Effect PublishError Unit :=
  change (.io path) (·.write path content.toUTF8)

/-- The description of a page. -/
def pageDescription (draft : Draft) : String :=
  Json.print 2 (.object [(some "title", .text (some draft.title)),
    (some "parentId", .text (some draft.parentId)),
    (some "identity", .text (some draft.identity))])

/-- Copies a file into a directory under its own name. A path without a name is passed
over. -/
def copyInto (directory path : String) : Effect PublishError Unit :=
  match fileName path with
  | none => pure ()
  | some name => change (.io path) (·.copy path (join directory name))

/-- Copies files into a directory, which is created if there are any. -/
def copyAll (directory : String) : List String → Effect PublishError Unit
  | [] => pure ()
  | paths => do
      makeDirectories (.io directory) directory
      paths.forM (copyInto directory)

/-- Writes the files of a page into its directory. -/
def stagePage (directory : String) (draft : Draft) : Effect PublishError Unit := do
  makeDirectories (.io directory) directory
  writeFile (join directory "page.xml") draft.body
  writeFile (join directory "page.json") (pageDescription draft)
  copyAll (join directory "attachments") draft.attachments

namespace StagingArea

/-- Stages a draft: under its page's id, or under the next new one. -/
def publish (area : StagingArea) (draft : Draft) (state : StagingState) :
    Except PublishError String × StagingState :=
  let (id, used) :=
    match draft.pageId with
    | some id => (id, state.used)
    | none => (area.newId state.used, state.used + 1)
  match (stagePage (join area.directory id) draft).run state.files with
  | (.ok (), files) => (.ok id, ⟨files, used⟩)
  | (.error e, files) => (.error e, ⟨files, used⟩)

/-- The publisher that stages pages in a directory. -/
def publisher (area : StagingArea) : Publisher StagingState where
  files := StagingState.files
  publish := area.publish

end StagingArea

end WikiPress.Sync
