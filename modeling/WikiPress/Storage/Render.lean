import WikiPress.Files.System
import WikiPress.Markdown.Parse
import WikiPress.Storage.Writer

/-!
# WikiPress.Storage.Render

Pages from Markdown, given as a text or as a file.
-/

namespace WikiPress.Storage

open WikiPress.Files (FileSystem FileError)

/-- The page a Markdown text becomes. -/
def renderMarkdown (style : Style) (context : Context) (text : String) : Page :=
  write style context (Markdown.events text)

/-- Why a file could not be rendered. -/
structure ReadError where
  path : String
  cause : FileError
  deriving DecidableEq, Repr

/-- What is said about a file that could not be rendered. -/
def ReadError.message (e : ReadError) : String :=
  s!"Failed to read {e.path}: {e.cause.message}"

/-- The page a Markdown file becomes. -/
def renderFile (style : Style) (context : Context) (fs : FileSystem) (path : String) :
    Except ReadError Page :=
  match fs.readText path with
  | .ok text => .ok (renderMarkdown style context text)
  | .error cause => .error ⟨path, cause⟩

end WikiPress.Storage
