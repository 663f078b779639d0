import WikiPress.Files.Error
import WikiPress.Files.Node
import WikiPress.Files.Path

/-!
# WikiPress.Files.System

A file system as a value: a tree and a working directory, with the operations a program
has on it.

Reading operations answer from the tree. Writing operations give a new file system, or
fail and leave everything as it was.

Design points:

* A path is a list of steps, taken one after another by `walk`. A step into a link goes
  on with the steps of the link's target; the number of links on one walk is bounded, so
  every walk ends.
* Where a walk is, is known by names alone, never through links: `Place` lists them from
  the innermost outwards.
* A directory may be kept from being listed, and then it is not known what is in it; what
  has a path there is found all the same. Every directory may be searched, and every file
  read. How long a path is counts where a directory is listed.
-/

namespace WikiPress.Files

open WikiPress.Text (segmentsOf)

/-- The names that lead to a node from the root, innermost first. -/
abbrev Place := List String

/-- A file system and the directory relative paths start from. -/
structure FileSystem where
  root : Node
  /-- The names from the root to the working directory. -/
  workingDirectory : List String
  /-- Whether the directory at a place is kept from being listed. -/
  closed : Place → Bool := fun _ => false

/-- The working directory as a path. -/
def FileSystem.workingPath (fs : FileSystem) : String :=
  "/" ++ "/".intercalate fs.workingDirectory

/-! ## Walking along paths -/

/-- One step along a path. -/
inductive Step
  /-- The place must be a directory. -/
  | stay
  | up
  | into (name : String)
  deriving DecidableEq, Repr

/-- The step a segment stands for. Empty segments between slashes stand for none. -/
def stepOf (segment : List Char) : Option Step :=
  if segment = [] then none
  else if segment = ['.'] then some .stay
  else if segment = ['.', '.'] then some .up
  else some (.into (String.ofList segment))

/-- The steps of a path. A slash at the end asks for a directory. -/
def stepsOf (path : String) : List Step :=
  (segmentsOf path.toList).filterMap stepOf ++
    if path.toList.getLast? = some '/' then [.stay] else []

/-- Where a walk ends. -/
inductive Found
  | node (place : Place) (node : Node)
  /-- A name that is free in an existing directory. -/
  | vacant (directory : Place) (name : String)

/-- The most links one walk may follow. -/
def linkLimit : Nat := 40

/-- The most bytes a name may have. -/
def nameLimit : Nat := 255

/-- Takes steps from a node. `follow` tells whether a link in the last step is
followed. -/
def walk (root : Node) (follow : Bool) (links : Nat) (place : Place) (node : Node) :
    List Step → Except FileError Found
  | [] => .ok (.node place node)
  | .stay :: rest =>
      if node.isDirectory then walk root follow links place node rest
      else .error .notADirectory
  | .up :: rest =>
      if node.isDirectory then
        match Node.at? place.tail.reverse root with
        | some above => walk root follow links place.tail above rest
        | none => .error .noSuchFile
      else .error .notADirectory
  | .into name :: rest =>
      match node with
      | .directory entries =>
          if nameLimit < name.utf8ByteSize then .error .nameTooLong
          else match Keyed.find? name entries with
            | none =>
                if rest = [] then .ok (.vacant place name) else .error .noSuchFile
            | some (.link target) =>
                if rest = [] ∧ follow = false then .ok (.node (name :: place) (.link target))
                else match links with
                  | 0 => .error .tooManyLinks
                  | links + 1 =>
                      if isAbsolute target then
                        walk root follow links [] root (stepsOf target ++ rest)
                      else walk root follow links place node (stepsOf target ++ rest)
            | some inner => walk root follow links (name :: place) inner rest
      | _ => .error .notADirectory
  termination_by steps => (links, steps.length)

/-- Takes steps from the directory a path starts at. -/
def FileSystem.walkFrom (fs : FileSystem) (path : String) (follow : Bool)
    (steps : List Step) : Except FileError Found :=
  if path.toList.contains '\x00' then .error .unusablePath
  else if path.isEmpty then .error .noSuchFile
  else if isAbsolute path then walk fs.root follow linkLimit [] fs.root steps
  else match Node.at? fs.workingDirectory fs.root with
    | some start =>
        walk fs.root follow linkLimit fs.workingDirectory.reverse start steps
    | none => .error .noSuchFile

/-- Where a path leads. -/
def FileSystem.find (fs : FileSystem) (path : String) (follow : Bool) :
    Except FileError Found :=
  fs.walkFrom path follow (stepsOf path)

/-- The node a path leads to. -/
def FileSystem.node (fs : FileSystem) (path : String) : Except FileError Node :=
  match fs.find path true with
  | .ok (.node _ node) => .ok node
  | .ok (.vacant _ _) => .error .noSuchFile
  | .error e => .error e

/-! ## Reading -/

/-- Whether a path leads anywhere. -/
def FileSystem.has (fs : FileSystem) (path : String) : Bool :=
  (fs.node path).toOption.isSome

/-- Whether a path leads to a directory. -/
def FileSystem.isDirectory (fs : FileSystem) (path : String) : Bool :=
  ((fs.node path).toOption.map Node.isDirectory).getD false

/-- The bytes of a file. -/
def FileSystem.read (fs : FileSystem) (path : String) : Except FileError ByteArray :=
  match fs.node path with
  | .ok (.file content) => .ok content
  | .ok _ => .error .isADirectory
  | .error e => .error e

/-- The text of a file. -/
def FileSystem.readText (fs : FileSystem) (path : String) : Except FileError String := do
  let content ← fs.read path
  match String.fromUTF8? content with
  | some text => .ok text
  | none => .error .notText

/-! ## Listing -/

/-- The least number of bytes that is too many for a path. -/
def pathLimit : Nat := 4096

/-- Whether a directory may be listed by a path that leads to it. -/
def FileSystem.mayList (fs : FileSystem) (path : String) (place : Place) : Bool :=
  path.utf8ByteSize < pathLimit && !fs.closed place

mutual

/-- A node, with what can be listed in it. -/
def FileSystem.listed (fs : FileSystem) (path : String) (place : Place) : Node → Node
  | .directory entries => .directory (fs.listedEntries path place entries)
  | node => node

/-- The entries of a directory, each with what can be listed in it. A directory that may
not be listed is skipped. -/
def FileSystem.listedEntries (fs : FileSystem) (path : String) (place : Place) :
    List (String × Node) → List (String × Node)
  | [] => []
  | (name, node) :: rest =>
      if node.isDirectory && !fs.mayList (join path name) (name :: place) then
        fs.listedEntries path place rest
      else
        (name, fs.listed (join path name) (name :: place) node) ::
          fs.listedEntries path place rest

end

/-- What is below a directory, as far as it can be listed. -/
def FileSystem.tree (fs : FileSystem) (path : String) : Except FileError (Keyed Node) :=
  match fs.find path true with
  | .ok (.node place (.directory entries)) =>
      if pathLimit ≤ path.utf8ByteSize then .error .nameTooLong
      else if fs.closed place then .error .permissionDenied
      else .ok (fs.listedEntries path place entries)
  | .ok (.node _ _) => .error .notADirectory
  | .ok (.vacant _ _) => .error .noSuchFile
  | .error e => .error e

/-! ## Writing -/

/-- Gives a node to a name in a directory, in place of what had the name. -/
def FileSystem.put (fs : FileSystem) (directory : Place) (name : String) (node : Node) :
    FileSystem :=
  { fs with root := fs.root.updateAt (Keyed.set name node) directory.reverse }

/-- Gives a file its content, creating it in its directory if need be. Links are
followed, also to a file that is yet to be. -/
def FileSystem.write (fs : FileSystem) (path : String) (content : ByteArray) :
    Except FileError FileSystem :=
  match fs.find path true with
  | .ok (.vacant directory name) => .ok (fs.put directory name (.file content))
  | .ok (.node (name :: directory) (.file _)) =>
      .ok (fs.put directory name (.file content))
  | .ok (.node _ _) => .error .isADirectory
  | .error e => .error e

/-- Creates a directory. -/
def FileSystem.makeDirectory (fs : FileSystem) (path : String) :
    Except FileError FileSystem :=
  let bare := (path.toList.reverse.dropWhile (· = '/')).reverse
  match fs.walkFrom path false ((segmentsOf bare).filterMap stepOf) with
  | .ok (.vacant directory name) => .ok (fs.put directory name (.directory []))
  | .ok (.node _ _) => .error .alreadyExists
  | .error e => .error e

/-- Creates a link. -/
def FileSystem.makeLink (fs : FileSystem) (path target : String) :
    Except FileError FileSystem :=
  match fs.find path false with
  | .ok (.vacant directory name) => .ok (fs.put directory name (.link target))
  | .ok (.node _ _) => .error .alreadyExists
  | .error e => .error e

/-- Puts a new file in the place of a path in one go. What had the name before is
replaced, a link without being followed; a directory is in the way. -/
def FileSystem.replace (fs : FileSystem) (path : String) (content : ByteArray) :
    Except FileError FileSystem :=
  let steps := (segmentsOf path.toList).filterMap stepOf
  match fs.walkFrom path true steps.dropLast with
  | .error e => .error e
  | .ok (.vacant _ _) => .error .noSuchFile
  | .ok (.node directory (.directory entries)) =>
      match steps.getLast? with
      | some (.into name) =>
          if nameLimit < name.utf8ByteSize then .error .nameTooLong
          else if path.toList.getLast? = some '/' then .error .notADirectory
          else match Keyed.find? name entries with
            | some (.directory _) => .error .isADirectory
            | _ => .ok (fs.put directory name (.file content))
      | _ => .error .busy
  | .ok (.node _ _) => .error .notADirectory

/-- Copies a file's content to another path. A file copied to itself ends up empty,
because the copy starts by emptying its destination. -/
def FileSystem.copy (fs : FileSystem) (source destination : String) :
    Except FileError FileSystem := do
  match ← fs.node source with
  | .file _ =>
      let emptied ← fs.write destination .empty
      emptied.write destination (← emptied.read source)
  | _ => .error .notRegular

/-- Removes what a path leads to, with everything below it; a link is removed
itself. -/
def FileSystem.remove (fs : FileSystem) (path : String) : FileSystem :=
  match fs.find path false with
  | .ok (.node (name :: directory) _) =>
      { fs with root := fs.root.updateAt (Keyed.erase name) directory.reverse }
  | _ => fs

/-- Creates the directories of a list, outermost last. One that exists is left alone. -/
def FileSystem.makeMissing (fs : FileSystem) : List String → Except FileError Unit × FileSystem
  | [] => (.ok (), fs)
  | path :: outer =>
      match fs.makeDirectory path with
      | .ok made => (.ok (), made)
      | .error .noSuchFile =>
          match fs.makeMissing outer with
          | (.error e, partway) => (.error e, partway)
          | (.ok (), under) =>
              match under.makeDirectory path with
              | .ok made => (.ok (), made)
              | .error e =>
                  if under.isDirectory path then (.ok (), under) else (.error e, under)
      | .error e => if fs.isDirectory path then (.ok (), fs) else (.error e, fs)

/-- A path and the paths of the directories around it, as far as they have a text. -/
def ancestors (path : String) : List String :=
  go (segmentsOf path.toList).length path
where
  /-- At most so many of them. -/
  go : Nat → String → List String
    | 0, _ => []
    | fuel + 1, path =>
        if path.isEmpty then []
        else path :: match parent path with
          | some outer => go fuel outer
          | none => []

/-- Creates a directory and those around it that are missing. Those already created
stay when a later one fails. -/
def FileSystem.makeDirectories (fs : FileSystem) (path : String) :
    Except FileError Unit × FileSystem :=
  fs.makeMissing (ancestors path)

end WikiPress.Files
