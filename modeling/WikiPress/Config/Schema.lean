import WikiPress.Toml.Reader

/-!
# WikiPress.Config.Schema

The settings a configuration file can make.

Design points:

* The file has four sections. A section is a table, or an array that has the settings in
  their order. A date counts as a section without settings.
* A setting that is absent is left open. One of the wrong type is an error; one that
  nobody knows is skipped.
-/

namespace WikiPress.Config

open WikiPress.Toml (Value)

/-- The settings of a file, as far as they are made. -/
structure Settings where
  sourceDirectory : Option String
  attachmentsFolder : Option String
  indexName : Option String
  rootTitle : Option String
  hardLineBreak : Option Bool
  diagramLanguage : Option String
  tipTitle : Option String
  stateFile : Option String
  rootPageId : Option String
  outDirectory : Option String
  deriving DecidableEq, Repr

/-- A setting that is a text: none if it has the wrong type. -/
def textSetting : Option Value → Option (Option String)
  | none => some none
  | some (.text content) => some (some content)
  | some _ => none

/-- A setting that is a truth value: none if it has the wrong type. -/
def booleanSetting : Option Value → Option (Option Bool)
  | none => some none
  | some (.boolean value) => some (some value)
  | some _ => none

/-- The settings of a section as a map from their names: none if it is no section. -/
def sectionOf (names : List String) : Option Value → Option (List (String × Value))
  | none => some []
  | some (.table entries) => some entries
  | some (.array items) => some (names.zip items)
  | some (.datetime _) => some []
  | some _ => none

/-- The settings of a document. -/
def settingsOf (document : List (String × Value)) : Option Settings := do
  let docs ← sectionOf ["source_dir", "attachments_dir", "index_name", "root_title"]
    (document.lookup "docs")
  let render ← sectionOf ["hard_line_break", "diagram_language", "tip_title"]
    (document.lookup "render")
  let state ← sectionOf ["file"] (document.lookup "state")
  let publish ← sectionOf ["root_page_id", "out_dir"] (document.lookup "publish")
  some {
    sourceDirectory := ← textSetting (docs.lookup "source_dir")
    attachmentsFolder := ← textSetting (docs.lookup "attachments_dir")
    indexName := ← textSetting (docs.lookup "index_name")
    rootTitle := ← textSetting (docs.lookup "root_title")
    hardLineBreak := ← booleanSetting (render.lookup "hard_line_break")
    diagramLanguage := ← textSetting (render.lookup "diagram_language")
    tipTitle := ← textSetting (render.lookup "tip_title")
    stateFile := ← textSetting (state.lookup "file")
    rootPageId := ← textSetting (publish.lookup "root_page_id")
    outDirectory := ← textSetting (publish.lookup "out_dir") }

/-- The settings a file's text makes: none if it is no such file. -/
def readSettings (text : String) : Option Settings :=
  (Toml.parse text).bind settingsOf

end WikiPress.Config
