import WikiPress.Config.Expand
import WikiPress.Config.Schema
import WikiPress.Files.System
import WikiPress.Storage.Writer
import WikiPress.Sync.Scan

/-!
# WikiPress.Config.Load

The configuration a command works with.

It comes from a file that is named or else found from the working directory upwards.
Paths in the file are seen from the file's directory. Without a file everything has its
default, with paths seen from the working directory. What the command line says comes on
top.

Design points:

* A configuration file is checked before the command line has its say.
* Paths are joined and never resolved, so they appear in messages as they were written.
-/

namespace WikiPress

open WikiPress.Files (FileSystem FileError join parent fileName)

/-- The configuration of a command. -/
structure Config where
  sourceDirectory : String
  attachmentsFolder : String
  indexName : String
  /-- The title given to the root page, if one is given. -/
  explicitTitle : Option String
  hardLineBreak : Bool
  diagramLanguage : String
  tipTitle : String
  stateFile : String
  /-- The id of the page above the root; empty for none. -/
  rootPageId : String
  outDirectory : String
  /-- The file the configuration comes from. -/
  path : Option String
  deriving DecidableEq, Repr

namespace Config

/-- Why there is no configuration. -/
inductive Error
  | notFound (path : String)
  | io (cause : FileError)
  /-- The file is not a configuration file. -/
  | malformed
  | invalid (reason : String)
  /-- A setting refers to a variable that has no value. -/
  | unset (setting variableName : String)
  deriving DecidableEq, Repr

/-- What is said when there is no configuration. -/
def Error.message : Error → String
  | .notFound path => s!"Configuration file not found: {path}"
  | .io cause => s!"I/O error: {cause.message}"
  | .malformed => "TOML parse error"
  | .invalid reason => s!"Configuration error: {reason}"
  | .unset setting variableName =>
      s!"Environment variable error in {setting}: $" ++ "\x7b" ++ variableName ++ "\x7d not set"

/-- The name of the configuration file looked for. -/
def defaultName : String := "confsync.toml"

/-- The directory for the program's own files. -/
def projectName : String := ".confsync"

/-- The title of the root page: the one given, or the name of the source directory. -/
def rootTitle (config : Config) : String :=
  config.explicitTitle.getD ((fileName config.sourceDirectory).getD "Docs")

/-! ## Making a configuration -/

/-- No settings at all. -/
def noSettings : Settings :=
  ⟨none, none, none, none, none, none, none, none, none, none⟩

/-- The configuration of some settings, with their paths seen from a directory. -/
def resolve (directory : String) (path : Option String) (settings : Settings) : Config :=
  let style : Storage.Style := {}
  let project := join directory projectName
  { sourceDirectory := join directory (settings.sourceDirectory.getD "docs")
    attachmentsFolder := settings.attachmentsFolder.getD Attachment.defaultFolder
    indexName := settings.indexName.getD Sync.defaultIndexName
    explicitTitle := settings.rootTitle
    hardLineBreak := settings.hardLineBreak.getD style.hardLineBreak
    diagramLanguage := settings.diagramLanguage.getD style.diagramLanguage
    tipTitle := settings.tipTitle.getD style.tipTitle
    stateFile := (settings.stateFile.map (join directory)).getD (join project "state.json")
    rootPageId := settings.rootPageId.getD ""
    outDirectory := (settings.outDirectory.map (join directory)).getD (join project "pages")
    path }

/-- The configuration without a file, seen from a directory. -/
def standard (directory : String) : Config :=
  resolve directory none noSettings

/-- Replaces the references in a setting. -/
def expandSetting (env : String → Option String) (name : String) :
    Option String → Except Error (Option String)
  | none => .ok none
  | some text =>
      match expand env text with
      | .ok expanded => .ok (some expanded)
      | .error variableName => .error (.unset name variableName)

/-- Replaces the references in the settings that may have them. -/
def expandSettings (env : String → Option String) (settings : Settings) :
    Except Error Settings := do
  let rootTitle ← expandSetting env "docs.root_title" settings.rootTitle
  let rootPageId ← expandSetting env "publish.root_page_id" settings.rootPageId
  .ok { settings with rootTitle, rootPageId }

/-! ## Checking -/

/-- Checks that a text is not empty. -/
def requireSome (name text : String) : Except Error Unit :=
  if text.isEmpty then .error (.invalid s!"{name} cannot be empty") else .ok ()

/-- Checks a configuration. -/
def validate (config : Config) : Except Error Unit := do
  requireSome "docs.attachments_dir" config.attachmentsFolder
  if config.attachmentsFolder.toList.contains '/' || config.attachmentsFolder = "."
      || config.attachmentsFolder = ".." then
    throw (.invalid "docs.attachments_dir must be a single folder name")
  requireSome "docs.index_name" config.indexName
  if !(".md".toList.isSuffixOf config.indexName.toList) then
    throw (.invalid "docs.index_name must end with .md")
  requireSome "render.diagram_language" config.diagramLanguage

/-! ## Loading -/

/-- What the command line says about the configuration. -/
structure Overrides where
  sourceDirectory : Option String := none
  stateFile : Option String := none
  outDirectory : Option String := none
  hardLineBreak : Option Bool := none
  deriving DecidableEq, Repr

/-- A configuration with what the command line says on top. -/
def override (config : Config) (overrides : Overrides) : Config :=
  { config with
    sourceDirectory := overrides.sourceDirectory.getD config.sourceDirectory
    stateFile := overrides.stateFile.getD config.stateFile
    outDirectory := overrides.outDirectory.getD config.outDirectory
    hardLineBreak := overrides.hardLineBreak.getD config.hardLineBreak }

/-- The configuration of a file. -/
def ofFile (fs : FileSystem) (env : String → Option String) (path : String) :
    Except Error Config := do
  let text ← (fs.readText path).mapError .io
  match readSettings text with
  | none => .error .malformed
  | some settings =>
      let settings ← expandSettings env settings
      let config := resolve ((parent path).getD ".") (some path) settings
      config.validate
      .ok config

/-- The nearest configuration file in the working directory and the directories around
it. -/
def discover (fs : FileSystem) : Option String :=
  ((Files.ancestors fs.workingPath).map (join · defaultName)).find? fs.has

/-- The configuration of a command. -/
def load (fs : FileSystem) (env : String → Option String) (path : Option String)
    (overrides : Overrides) : Except Error Config := do
  let config ←
    match path with
    | some path => if fs.has path then ofFile fs env path else .error (.notFound path)
    | none =>
        match discover fs with
        | some path => ofFile fs env path
        | none => .ok (standard fs.workingPath)
  .ok (config.override overrides)

end Config

end WikiPress
