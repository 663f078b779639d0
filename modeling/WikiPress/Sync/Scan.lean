import WikiPress.Files.System
import WikiPress.Sync.Document

/-!
# WikiPress.Sync.Scan

The documents below a directory.

Every directory is a page. Its index file is the page's text, its other Markdown files
are the pages below, and all its other files are the page's attachments, together with
the files in its attachments folder. Names that start with a dot are not looked at.

Design points:

* The scan follows the tree of nodes, so it visits real directories only. A link counts
  as a file, whatever it leads to.
* What is scanned is the tree as far as it can be listed. So a subdirectory that may not be
  listed is no page, and an attachments folder that may not be listed has no files. Where not
  even the source directory may be listed, there are no documents.
* A directory gives its own pages first and those of its subdirectories after them; the
  whole is put in order at the end.
* A directory may be listed in any order. The files of a page are put in order by name.
-/

namespace WikiPress.Sync

open WikiPress.Files (FileSystem Node fileName fileStem extension)

/-- The name of a directory's index file, unless configured otherwise. -/
def defaultIndexName : String := "index.md"

/-- What a scan goes by. -/
structure Scanner where
  sourceDirectory : String
  attachmentsFolder : String := Attachment.defaultFolder
  indexName : String := defaultIndexName
  /-- The title of the page of the source directory. -/
  rootTitle : String := (fileName sourceDirectory).getD ""
  deriving DecidableEq, Repr

/-- Why there was nothing to scan. -/
structure ScanError where
  sourceDirectory : String
  deriving DecidableEq, Repr

/-- What is said about a source directory that is not there. -/
def ScanError.message (e : ScanError) : String :=
  s!"Source directory not found: {e.sourceDirectory}"

/-- A directory and its place in the page tree. -/
structure Folder where
  path : String
  /-- The path from the source directory; empty for that directory itself. -/
  relative : String
  level : Nat
  title : String
  parentIdentity : String
  parentTitle : String
  deriving DecidableEq, Repr

/-- A name in a directory, as seen from the source directory. -/
def identityIn (relative name : String) : String :=
  if relative.isEmpty then name else relative ++ "/" ++ name

/-- Whether a name is hidden from the scan. -/
def isHidden (name : String) : Bool :=
  name.toList.head? == some '.'

/-- Whether a file is a Markdown file, by its name. -/
def isMarkdown (name : String) : Bool :=
  extension name == some "md"

/-- The files of an attachments folder that are published, by name. A folder that may not be listed
has none, since it is not in the tree. -/
def attachmentFiles (path : String) (entries : Keyed Node) : List String :=
  ((Keyed.sorted entries).filter fun (name, node) =>
    !isHidden name && !node.isDirectory && !isMarkdown name).map
      fun (name, _) => Files.join path name

namespace Scanner

/-- The identity of a directory's index document. -/
def indexIdentity (scanner : Scanner) (folder : Folder) : String :=
  identityIn folder.relative scanner.indexName

/-- The document of a Markdown file beside the index. -/
def childDocument (scanner : Scanner) (folder : Folder) (name : String) : Document where
  source := .file (Files.join folder.path name)
  identity := identityIn folder.relative name
  title := (fileStem name).getD ""
  isIndex := false
  parentTitle := folder.title
  parentIdentity := scanner.indexIdentity folder
  level := folder.level + 1
  attachments := []

/-- The documents of the Markdown files beside the index. -/
def childDocuments (scanner : Scanner) (folder : Folder) (entries : Keyed Node) :
    List Document :=
  (entries.filter fun (name, node) =>
    !isHidden name && !node.isDirectory && name != scanner.indexName && isMarkdown name).map
      fun (name, _) => scanner.childDocument folder name

/-- The files published with a directory's page, by name. -/
def attachments (scanner : Scanner) (folder : Folder) (entries : Keyed Node) :
    List String :=
  (Keyed.sorted entries).flatMap fun (name, node) =>
    if isHidden name then []
    else match node with
      | .directory inner =>
          if name = scanner.attachmentsFolder then
            attachmentFiles (Files.join folder.path name) inner
          else []
      | _ =>
          if name = scanner.indexName || isMarkdown name then []
          else [Files.join folder.path name]

/-- Whether a directory has its index as a file. -/
def hasIndex (scanner : Scanner) (entries : Keyed Node) : Bool :=
  entries.any fun (name, node) =>
    !isHidden name && !node.isDirectory && name == scanner.indexName

/-- The index document of a directory. -/
def indexDocument (scanner : Scanner) (folder : Folder) (entries : Keyed Node) :
    Document where
  source :=
    if scanner.hasIndex entries then .file (Files.join folder.path scanner.indexName)
    else .virtual
  identity := scanner.indexIdentity folder
  title := folder.title
  isIndex := true
  parentTitle := folder.parentTitle
  parentIdentity := folder.parentIdentity
  level := folder.level
  attachments := scanner.attachments folder entries

/-- A subdirectory of a directory. -/
def subfolder (scanner : Scanner) (folder : Folder) (name : String) : Folder where
  path := Files.join folder.path name
  relative := identityIn folder.relative name
  level := folder.level + 1
  title := name
  parentIdentity := scanner.indexIdentity folder
  parentTitle := folder.title

mutual

/-- The documents of a directory and of all below it in the tree, where those that may not be
listed are not. -/
def documentsOf (scanner : Scanner) (folder : Folder) : Node → List Document
  | .directory entries =>
      scanner.childDocuments folder entries ++ scanner.indexDocument folder entries ::
        scanner.documentsBelow folder entries
  | _ => []

/-- The documents of the subdirectories of a directory. -/
def documentsBelow (scanner : Scanner) (folder : Folder) :
    List (String × Node) → List Document
  | [] => []
  | (name, node) :: rest =>
      if isHidden name || name == scanner.attachmentsFolder then
        scanner.documentsBelow folder rest
      else
        scanner.documentsOf (scanner.subfolder folder name) node ++
          scanner.documentsBelow folder rest

end

/-- The source directory's place in the page tree: its top. -/
def rootFolder (scanner : Scanner) : Folder where
  path := scanner.sourceDirectory
  relative := ""
  level := 0
  title := scanner.rootTitle
  parentIdentity := ""
  parentTitle := ""

/-- The documents below the source directory, in the order of publication. -/
def scan (scanner : Scanner) (fs : FileSystem) : Except ScanError (List Document) :=
  match fs.tree scanner.sourceDirectory with
  | .ok contents => .ok (inOrder (scanner.documentsOf scanner.rootFolder (.directory contents)))
  -- a directory is there, but it may not be listed
  | .error .permissionDenied => .ok []
  | .error _ => .error ⟨scanner.sourceDirectory⟩

end Scanner

end WikiPress.Sync
