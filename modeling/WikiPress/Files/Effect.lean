import WikiPress.Files.System

/-!
# WikiPress.Files.Effect

Programs on a file system that may fail. What such a program has written before it fails
stays written.
-/

namespace WikiPress.Files

/-- A program on a file system that gives an answer or fails. -/
abbrev Effect (ε α : Type) := ExceptT ε (StateM FileSystem) α

variable {ε : Type}

/-- Changes the file system by one operation. -/
def change (failure : FileError → ε) (op : FileSystem → Except FileError FileSystem) :
    Effect ε Unit :=
  ExceptT.mk fun fs =>
    match op fs with
    | .ok changed => (.ok (), changed)
    | .error e => (.error (failure e), fs)

/-- Creates a directory and those around it that are missing. -/
def makeDirectories (failure : FileError → ε) (path : String) : Effect ε Unit :=
  ExceptT.mk fun fs =>
    match fs.makeDirectories path with
    | (.ok (), changed) => (.ok (), changed)
    | (.error e, changed) => (.error (failure e), changed)

end WikiPress.Files
