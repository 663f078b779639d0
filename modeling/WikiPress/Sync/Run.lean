import WikiPress.Ledger.Store
import WikiPress.Storage.Render
import WikiPress.Sync.Document
import WikiPress.Sync.Publisher

/-!
# WikiPress.Sync.Run

Publishes the documents that changed.

Documents are taken in the order of publication, so a page has its id before the pages
below need it. Each is rendered and compared with its ledger entry; if its body or its
parent is new, it goes to the publisher, and the entry is renewed with the answer. A
document that fails leaves its entry alone and does not stop the others.

Design points:

* A dry run does all of this except publishing and renewing entries.
* The state of a run is the ledger and the publisher's state; `syncDocument` takes one
  document through it and says what became of it.
* A file a document refers to beside itself that is not there is reported and is no
  failure.
-/

namespace WikiPress.Sync

open WikiPress.Files (FileSystem)
open WikiPress.Storage (Page Style)

/-! ## Outcomes -/

/-- Why a document failed. -/
inductive Failure
  | render (e : Storage.ReadError)
  | publish (e : PublishError)
  /-- The page above has no id yet. -/
  | missingParent (identity : String)
  deriving DecidableEq, Repr

/-- What is said about a document that failed. -/
def Failure.message : Failure → String
  | .render e => e.message
  | .publish e => e.message
  | .missingParent identity => s!"Parent page {identity} has no page id"

/-- What became of a document. -/
inductive Outcome
  | unchanged
  /-- On a dry run: a page would be created. -/
  | wouldCreate
  /-- On a dry run: the page would be updated. -/
  | wouldUpdate
  | created
  | updated
  | failed (reason : Failure)
  deriving DecidableEq, Repr

/-- One word for an outcome. -/
def Outcome.label : Outcome → String
  | .unchanged => "unchanged"
  | .wouldCreate => "new"
  | .wouldUpdate => "changed"
  | .created => "created"
  | .updated => "updated"
  | .failed _ => "failed"

/-- Whether a page was created, or would be. -/
def Outcome.isCreation : Outcome → Bool
  | .created | .wouldCreate => true
  | _ => false

/-- Whether a page was updated, or would be. -/
def Outcome.isUpdate : Outcome → Bool
  | .updated | .wouldUpdate => true
  | _ => false

/-- Whether a document failed. -/
def Outcome.isFailure : Outcome → Bool
  | .failed _ => true
  | _ => false

/-- A document and what became of it. -/
structure Result where
  identity : String
  title : String
  outcome : Outcome
  deriving DecidableEq, Repr

/-- A file that a document refers to and that is not there. -/
structure MissingAttachment where
  identity : String
  path : String
  deriving DecidableEq, Repr

/-- What became of the documents of a run, in the order of publication. -/
structure Report where
  results : List Result
  missing : List MissingAttachment
  deriving DecidableEq, Repr

namespace Report

/-- How many documents had an outcome of a kind. -/
def count (report : Report) (kind : Outcome → Bool) : Nat :=
  report.results.countP fun result => kind result.outcome

/-- How many documents were as published before. -/
def unchanged (report : Report) : Nat := report.count (· == .unchanged)

/-- How many pages were created, or would be. -/
def created (report : Report) : Nat := report.count Outcome.isCreation

/-- How many pages were updated, or would be. -/
def updated (report : Report) : Nat := report.count Outcome.isUpdate

/-- How many documents failed. -/
def failed (report : Report) : Nat := report.count Outcome.isFailure

/-- The results of the documents that were not as published before. -/
def pending (report : Report) : List Result :=
  report.results.filter (·.outcome != .unchanged)

end Report

/-! ## Runs -/

/-- How documents are synced. -/
structure Runner where
  style : Style := {}
  /-- The id of the page above the root; empty for none. -/
  rootPageId : String := ""
  dryRun : Bool := false
  deriving DecidableEq, Repr

/-- The state of a run: the ledger and the publisher's state. -/
structure Progress (σ : Type) where
  ledger : Ledger
  remote : σ

variable {σ : Type}

/-- The files a page refers to beside its document that are not there. -/
def missingAttachments (fs : FileSystem) (document : Document) (page : Page) :
    List MissingAttachment :=
  match document.path.bind Files.parent with
  | none => []
  | some directory =>
      (page.attachments.filter fun reference =>
        reference.directory == .current && !fs.has (Files.join directory reference.path)).map
          fun reference => ⟨document.identity, reference.path⟩

namespace Runner

/-- The page of a document. -/
def render (runner : Runner) (fs : FileSystem) (document : Document) :
    Except Storage.ReadError Page :=
  match document.source with
  | .file path => Storage.renderFile runner.style document.context fs path
  | .virtual => .ok (Storage.renderMarkdown runner.style document.context "")

/-- The id of the page above a document. Asking for it makes an entry for the document
above. -/
def parentId (runner : Runner) (document : Document) (ledger : Ledger) :
    Except Failure String × Ledger :=
  if document.parentIdentity.isEmpty then (.ok runner.rootPageId, ledger)
  else
    let (handle, ledger) := ledger.entryFor document.parentIdentity
    let id := (ledger.read handle).id
    if id.isEmpty && !runner.dryRun then
      (.error (.missingParent document.parentIdentity), ledger)
    else (.ok id, ledger)

/-- Publishes a page if it differs from what its entry says. -/
def publishPage (runner : Runner) (publisher : Publisher σ) (document : Document)
    (body parentId : String) (progress : Progress σ) : Outcome × Progress σ :=
  let (handle, ledger) := progress.ledger.entryFor document.identity
  let entry := ledger.read handle
  let hash := Digest.ofText body
  if !entry.isNew && entry.hash == hash && entry.parentId == parentId then
    (.unchanged, { progress with ledger })
  else if runner.dryRun then
    (if entry.isNew then .wouldCreate else .wouldUpdate, { progress with ledger })
  else
    let draft : Draft :=
      { identity := document.identity, title := document.title, parentId,
        pageId := if entry.isNew then none else some entry.id,
        body, attachments := document.attachments }
    match publisher.publish draft progress.remote with
    | (.error e, remote) => (.failed (.publish e), ⟨ledger, remote⟩)
    | (.ok id, remote) =>
        (if entry.isNew then .created else .updated,
          ⟨ledger.commit handle { id, hash, parentId }, remote⟩)

/-- Takes a document through a run: what became of it, the files it misses, and the
state afterwards. -/
def syncDocument (runner : Runner) (publisher : Publisher σ) (document : Document)
    (progress : Progress σ) : Outcome × List MissingAttachment × Progress σ :=
  let fs := publisher.files progress.remote
  match runner.render fs document with
  | .error e => (.failed (.render e), [], progress)
  | .ok page =>
      let missing := missingAttachments fs document page
      match runner.parentId document progress.ledger with
      | (.error e, ledger) => (.failed e, missing, { progress with ledger })
      | (.ok parentId, ledger) =>
          let (outcome, progress) :=
            runner.publishPage publisher document page.body parentId
              { progress with ledger }
          (outcome, missing, progress)

/-- Takes documents through a run one after another. -/
def syncAll (runner : Runner) (publisher : Publisher σ) :
    List Document → Progress σ → Report × Progress σ
  | [], progress => (⟨[], []⟩, progress)
  | document :: rest, progress =>
      let (outcome, missing, progress) := runner.syncDocument publisher document progress
      let (report, progress) := runner.syncAll publisher rest progress
      (⟨⟨document.identity, document.title, outcome⟩ :: report.results,
        missing ++ report.missing⟩, progress)

/-- Syncs documents in the order of publication. -/
def run (runner : Runner) (publisher : Publisher σ) (documents : List Document)
    (progress : Progress σ) : Report × Progress σ :=
  runner.syncAll publisher (inOrder documents) progress

/-- Saves the ledger after a run, unless the run was a dry one. -/
def persist (runner : Runner) (ledger : Ledger) (fs : FileSystem) :
    Except Ledger.SaveError Unit × FileSystem :=
  if runner.dryRun then (.ok (), fs) else ledger.persist fs

end Runner

/-- What is said when the ledger could not be saved after a run. -/
def saveFailure (e : Ledger.SaveError) : String :=
  s!"Failed to save sync state: {e.message}"

end WikiPress.Sync
