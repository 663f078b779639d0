import WikiPress.Sync.Run

/-!
# WikiPress.CommandLine.Listing

The lines a command prints about a run.
-/

namespace WikiPress.CommandLine

open WikiPress.Sync (Outcome Report Result)

/-- A text filled up with spaces to a width. -/
def padded (width : Nat) (text : String) : String :=
  text ++ String.ofList (List.replicate (width - text.length) ' ')

/-- The line of a document. -/
def resultLine (result : Result) : String :=
  let line := s!"  {padded 9 result.outcome.label} {result.identity}"
  match result.outcome with
  | .failed reason => s!"{line}: {reason.message}"
  | _ => line

/-- Whether an outcome is one of a dry run. -/
def isForecast (outcome : Outcome) : Bool :=
  outcome == .wouldCreate || outcome == .wouldUpdate

/-- The line with the counts of a run, behind an empty one. -/
def summary (report : Report) : String :=
  let forecast := report.results.any fun result => isForecast result.outcome
  let created := if forecast then "new" else "created"
  let updated := if forecast then "changed" else "updated"
  s!"\n{report.created} {created}, {report.updated} {updated}, " ++
    s!"{report.unchanged} unchanged, {report.failed} failed"

/-- The lines of a status listing. -/
def statusLines (all : Bool) (report : Report) : List String :=
  let listed := if all then report.results else report.pending
  let lines :=
    if listed.isEmpty then ["Everything up to date."] else listed.map resultLine
  lines ++ [summary report]

/-- The lines behind a sync. -/
def syncLines (dryRun : Bool) (report : Report) : List String :=
  let note := if dryRun then ["\n[DRY RUN] No changes made."] else []
  note ++ report.pending.map resultLine ++ [summary report]

/-- The lines about the attachments of a page, if it has any. -/
def attachmentLines : List Attachment.Reference → List String
  | [] => []
  | references =>
      s!"\nAttachments ({references.length}):" ::
        references.map fun r => s!"  {r.path} ({r.directory.path})"

end WikiPress.CommandLine
