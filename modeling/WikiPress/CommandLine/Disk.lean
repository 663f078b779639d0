import WikiPress.Files.System

/-!
# WikiPress.CommandLine.Disk

Copies parts of the disk into a file system value, and the changes made to such a value
back to the disk.

Design points:

* A copied path brings along the directories and links on the way to it, so walks take
  the same course in the copy as on the disk.
* A link is copied as the place it finally leads to, and that place is copied too.
* Of a directory that may not be listed nothing is copied but that.
* A changed file is written beside its place and then moved there in one go.
-/

namespace WikiPress.CommandLine

open WikiPress.Files (FileSystem Node Place ancestors fileName join parent stepsOf Step)

/-- An entry of the directory around a path. -/
def entryOf (path : String) : IO.FS.DirEntry :=
  let directory := (parent path).getD ""
  { root := if directory.isEmpty then "." else directory, fileName := (fileName path).getD "." }

/-- The names of an absolute path. -/
def namesOf (path : String) : List String :=
  (stepsOf path).filterMap fun
    | .into name => some name
    | _ => none

/-- Gives a place in a file system a node, with the directories around it. -/
def graft (fs : FileSystem) (path : String) (node : Node) : FileSystem :=
  match (namesOf path).reverse with
  | [] => fs
  | name :: directory =>
      let fs := (fs.makeDirectories ((parent path).getD "/")).2
      fs.put directory name node

/-- What was found on the disk. -/
structure Survey where
  node : Option Node
  /-- Where the links in it lead. -/
  targets : List String := []
  /-- The directories in it that may not be listed. -/
  closed : List Place := []

/-- What is below an entry on the disk. -/
partial def readNode (entry : IO.FS.DirEntry) : IO Survey := do
  match (← entry.path.symlinkMetadata).type with
  | .dir =>
      match ← entry.path.readDir.toBaseIO with
      | .error (.permissionDenied ..) =>
          let place := (namesOf (toString entry.path)).reverse
          return { node := some (.directory []), closed := [place] }
      | .error e => throw e
      | .ok inside =>
          let mut entries : Keyed Node := []
          let mut targets : List String := []
          let mut closed : List Place := []
          for inner in inside do
            let found ← readNode inner
            targets := found.targets ++ targets
            closed := found.closed ++ closed
            if let some node := found.node then
              entries := Keyed.set inner.fileName node entries
          return { node := some (.directory entries), targets, closed }
  | .file => return { node := some (.file (← IO.FS.readBinFile entry.path)) }
  | .symlink =>
      if ← entry.path.pathExists then
        let target := toString (← IO.FS.realPath entry.path)
        return { node := some (.link target), targets := [target] }
      else return { node := some (.link "/\x01") }
  | .other => return { node := none }

/-- Copies a directory or a link on the way to a path, without what is in it. -/
def copyStep (fs : FileSystem) (path : String) : IO FileSystem := do
  let entry := entryOf path
  if !(← entry.path.pathExists) then return fs
  let real := toString (← IO.FS.realPath entry.path)
  let fs ←
    if ← entry.path.isDir then pure (fs.makeDirectories real).2
    else pure (graft fs real (.file (← IO.FS.readBinFile entry.path)))
  match (← entry.path.symlinkMetadata).type with
  | .symlink =>
      let directory := toString (← IO.FS.realPath entry.root)
      return graft fs (join directory entry.fileName) (.link real)
  | _ => return fs

/-- Copies what a path leads to on the disk, with everything below it. Links in it are
followed up to a depth. -/
def copyPath (depth : Nat) (fs : FileSystem) (path : String) : IO FileSystem := do
  let mut fs := fs
  for step in (ancestors path).reverse do
    fs ← copyStep fs step
  let entry := entryOf path
  if !(← entry.path.pathExists) then return fs
  let real := toString (← IO.FS.realPath entry.path)
  let found ← readNode (entryOf real)
  if let some node := found.node then
    fs := graft fs real node
  let closed := fs.closed
  fs := { fs with closed := fun place => found.closed.contains place || closed place }
  match depth with
  | 0 => return fs
  | depth + 1 =>
      for target in found.targets do
        if !fs.has target then fs ← copyPath depth fs target
      return fs

/-- Writes what is new or different in a node to the disk. -/
partial def writeChanges (path : String) (before : Option Node) (after : Node) : IO Unit := do
  match before, after with
  | some (.file old), .file new => if old.data != new.data then writeInPlace path new
  | _, .file new => writeInPlace path new
  | some (.directory old), .directory new => writeEntries old new
  | _, .directory new =>
      IO.FS.createDir path
      writeEntries [] new
  | _, .link _ => pure ()
where
  /-- Writes a file beside its place and moves it there. -/
  writeInPlace (path : String) (content : ByteArray) : IO Unit := do
    let beside := path ++ ".part"
    IO.FS.writeBinFile beside content
    IO.FS.rename beside path
  /-- Writes the entries of a directory. -/
  writeEntries (old new : Keyed Node) : IO Unit := do
    for (name, node) in new do
      writeChanges (if path = "/" then "/" ++ name else path ++ "/" ++ name)
        (Keyed.find? name old) node

end WikiPress.CommandLine
