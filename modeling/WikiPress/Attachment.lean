import WikiPress.Text.Segments

/-!
# WikiPress.Attachment

Which link and image destinations name a file attached to a page, and which page
that is.

A destination names an attachment when it is a path relative to the document: it has
no scheme, is not absolute, and is more than a fragment. The directory of the path
decides which page owns the file. Files collected in the attachments folder belong
to the page of the folder's parent, so `guide/assets/shot.png` is addressed like
`guide/shot.png`.

Design points:

* A path is read as the list of its segments between slashes; `normalize` brings a
  list of segments to its lexical normal form, in which `..` occurs only in front.
* `Directory` is the current directory or a non-empty normal form, kept as segments.
-/

namespace WikiPress.Attachment

open WikiPress.Text (segmentsOf)

/-- The name of the folder that collects attachments, unless configured otherwise. -/
def defaultFolder : String := "assets"

/-- The directory an attached file lives in, relative to the document. -/
inductive Directory
  /-- The document's own directory. -/
  | current
  /-- The directory reached by one or more segments. -/
  | page (first : String) (more : List String)
  deriving DecidableEq, Repr

/-- The directory reached by a list of segments. -/
def Directory.ofSegments : List String → Directory
  | [] => .current
  | s :: ss => .page s ss

/-- The segments that lead to a directory. -/
def Directory.segments : Directory → List String
  | .current => []
  | .page s ss => s :: ss

/-- A directory as a path; the current one is a dot. -/
def Directory.path : Directory → String
  | .current => "."
  | .page s ss => "/".intercalate (s :: ss)

/-- The title of the page that owns the files of a directory: the name of its last
segment. Who owns the current directory depends on the document. -/
def Directory.pageTitle : Directory → Option String
  | .current => none
  | .page s ss => some (ss.getLast?.getD s)

/-- A file a document refers to as attached. -/
structure Reference where
  /-- The destination as written, without query and fragment. -/
  path : String
  filename : String
  directory : Directory
  deriving DecidableEq, Repr

/-- Adds a segment to a normal form held in reverse: `..` takes back an ordinary
segment and is kept otherwise. -/
def pushSegment (done : List String) (segment : String) : List String :=
  if segment = "" ∨ segment = "." then done
  else if segment = ".." then
    match done with
    | [] => [".."]
    | last :: before => if last = ".." then ".." :: done else before
  else segment :: done

/-- The lexical normal form of a list of segments. -/
def normalize (segments : List String) : List String :=
  (segments.foldl pushSegment []).reverse

/-- The path of a destination, without query and fragment: none if nothing is left or
if its first segment has a colon. -/
def localPath (destination : List Char) : Option (List Char) :=
  let path := destination.takeWhile fun c => c != '?' && c != '#'
  if path.isEmpty || (path.takeWhile (· != '/')).contains ':' then none else some path

/-- The segments of a path in front of its last slash. -/
def directorySegments (path : List Char) : List String :=
  ((segmentsOf path).dropLast).map String.ofList

/-- Takes a final segment off if it is the attachments folder. -/
def dropFolder (folder : String) (segments : List String) : List String :=
  if segments.getLast? = some folder then segments.dropLast else segments

/-- The directory of the file a destination names, if it names an attachment. -/
def classify (folder : String) (destination : String) : Option Directory := do
  let path ← localPath destination.toList
  if path.head? = some '/' then none
  else some (.ofSegments (dropFolder folder (normalize (directorySegments path))))

/-- The file name at the end of a path, trailing slashes ignored. -/
def filenameOf (path : List Char) : String :=
  let trimmed := (path.reverse.dropWhile (· = '/')).reverse
  String.ofList ((segmentsOf trimmed).getLast?.getD [])

/-- The attachment a destination names. -/
def reference (folder : String) (destination : String) : Option Reference := do
  let directory ← classify folder destination
  let path ← localPath destination.toList
  some ⟨String.ofList path, filenameOf path, directory⟩

end WikiPress.Attachment
