import WikiPress.CommandLine.Arguments
import WikiPress.CommandLine.Listing
import WikiPress.Sync.Staging

/-!
# WikiPress.CommandLine.Execute

What a command line does: what it prints and what becomes of the files.

Design points:

* A command is a function of the files it finds, the variables of its environment and
  the ids for new pages. The outer program only moves bytes.
* Whatever a command has done and said before it fails stays done and said.
-/

namespace WikiPress.CommandLine

open WikiPress.Files (FileSystem fileName)
open WikiPress.Sync (Document Runner Scanner StagingArea StagingState)

/-- Why a command failed. -/
inductive Failure
  | config (e : Config.Error)
  | scan (e : Sync.ScanError)
  | render (e : Storage.ReadError)
  | save (e : Ledger.SaveError)
  /-- So many documents failed. -/
  | documents (count : Nat)
  deriving DecidableEq, Repr

/-- What is said when a command failed. -/
def Failure.message : Failure → String
  | .config e => e.message
  | .scan e => e.message
  | .render e => e.message
  | .save e => Sync.saveFailure e
  | .documents count => s!"{count} document(s) failed to sync"

/-- What a program prints, and its exit code. -/
structure Response where
  exitCode : Nat
  output : String
  errors : String
  deriving DecidableEq, Repr

/-- What a command has to go by: its environment, and the ids for new pages. -/
structure Surroundings where
  env : String → Option String
  newId : Nat → String

/-- The course of a command: what it printed and the lines it said, the files, and
whether it failed. -/
structure Course where
  output : String := ""
  lines : List String := []
  failure : Option Failure := none
  state : StagingState

/-- A command that failed before it did anything. -/
def Course.failed (failure : Failure) (state : StagingState) : Course :=
  { failure := some failure, state }

/-! ## Settings of the parts -/

/-- How a configuration has pages rendered. -/
def styleOf (config : Config) : Storage.Style where
  attachmentsFolder := config.attachmentsFolder
  hardLineBreak := config.hardLineBreak
  diagramLanguage := config.diagramLanguage
  tipTitle := config.tipTitle

/-- How a configuration has documents found. -/
def scannerOf (config : Config) : Scanner where
  sourceDirectory := config.sourceDirectory
  attachmentsFolder := config.attachmentsFolder
  indexName := config.indexName
  rootTitle := config.rootTitle

/-- How a configuration has documents synced. -/
def runnerOf (config : Config) (dryRun : Bool) : Runner where
  style := styleOf config
  rootPageId := config.rootPageId
  dryRun := dryRun

/-- Where a configuration has pages staged. -/
def stagingOf (config : Config) (surroundings : Surroundings) : StagingArea where
  directory := config.outDirectory
  newId := surroundings.newId

/-! ## Commands -/

/-- Prints the page of a file. A file with the name of an index is one. -/
def render (config : Config) (file parentTitle : String) (isIndex : Bool)
    (state : StagingState) : Course :=
  let context : Storage.Context :=
    { parentTitle, isIndex := isIndex || fileName file == some config.indexName }
  match Storage.renderFile (styleOf config) context state.files file with
  | .error e => .failed (.render e) state
  | .ok page =>
      { output := page.body ++ "\n", lines := attachmentLines page.attachments, state }

/-- The failure of a run in which documents failed. -/
def failureOf (report : Sync.Report) : Option Failure :=
  if report.failed = 0 then none else some (.documents report.failed)

/-- Lists the documents that would be published. Nothing is published and nothing is
saved. -/
def status (config : Config) (surroundings : Surroundings) (all : Bool)
    (state : StagingState) : Course :=
  match (scannerOf config).scan state.files with
  | .error e => .failed (.scan e) state
  | .ok documents =>
      let ledger := (Ledger.load state.files config.stateFile).ledger
      let (report, progress) := (runnerOf config true).run
        (stagingOf config surroundings).publisher documents ⟨ledger, state⟩
      { lines := statusLines all report, failure := failureOf report,
        state := progress.remote }

/-- Publishes the documents that changed and saves the ledger, also if some documents
failed. -/
def sync (config : Config) (surroundings : Surroundings) (dryRun : Bool)
    (state : StagingState) : Course :=
  match (scannerOf config).scan state.files with
  | .error e => .failed (.scan e) state
  | .ok documents =>
      let opening := s!"Syncing {documents.length} documents from {config.sourceDirectory}..."
      let ledger := (Ledger.load state.files config.stateFile).ledger
      let runner := runnerOf config dryRun
      let (report, progress) := runner.run
        (stagingOf config surroundings).publisher documents ⟨ledger, state⟩
      match runner.persist progress.ledger progress.remote.files with
      | (.error e, files) =>
          { lines := [opening], failure := some (.save e),
            state := { progress.remote with files } }
      | (.ok (), files) =>
          { lines := opening :: syncLines dryRun report, failure := failureOf report,
            state := { progress.remote with files } }

/-- Carries out an invocation. -/
def perform (invocation : Invocation) (surroundings : Surroundings) (state : StagingState) :
    Course :=
  match Config.load state.files surroundings.env invocation.configPath invocation.overrides with
  | .error e => .failed (.config e) state
  | .ok config =>
      match config.validate with
      | .error e => .failed (.config e) state
      | .ok () =>
          match invocation.command with
          | .render file parentTitle isIndex => render config file parentTitle isIndex state
          | .status all => status config surroundings all state
          | .sync dryRun => sync config surroundings dryRun state

/-! ## Programs -/

/-- Lines of text. -/
def ofLines (lines : List String) : String :=
  String.join (lines.map (· ++ "\n"))

/-- What the program calls itself. -/
def versionText : String := "confsync 0.1.0\n"

/-- How the program is used. -/
def usageText : String := ofLines [
  "Usage: confsync [OPTIONS] <COMMAND>",
  "",
  "Commands:",
  "  render <FILE>  Print the page of a Markdown file",
  "  status         List the documents that would be published",
  "  sync           Publish the documents that changed",
  "",
  "Options:",
  "  -c, --config <FILE>      Configuration file",
  "      --source-dir <DIR>   Directory of the documents",
  "      --state-file <FILE>  State file",
  "      --out-dir <DIR>      Staging directory",
  "      --hard-line-break    Keep line breaks",
  "  -v, --verbose            Say more",
  "  -h, --help               Print help",
  "  -V, --version            Print version"]

/-- What the program answers to a course. -/
def Course.response (course : Course) : Response :=
  match course.failure with
  | none => ⟨0, course.output, ofLines course.lines⟩
  | some failure =>
      ⟨1, course.output, ofLines (course.lines ++ [s!"Error: {failure.message}"])⟩

/-- What the program answers when there is nothing to do. -/
def Stop.response : Stop → Response
  | .misuse => ⟨2, "", usageText⟩
  | .help => ⟨0, usageText, ""⟩
  | .version => ⟨0, versionText, ""⟩

/-- The program: its answer to a command line, and the files afterwards. -/
def program (surroundings : Surroundings) (arguments : List String) (state : StagingState) :
    Response × StagingState :=
  match parse arguments with
  | .error stop => (stop.response, state)
  | .ok invocation =>
      let course := perform invocation surroundings state
      (course.response, course.state)

end WikiPress.CommandLine
