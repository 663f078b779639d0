import WikiPress.Text.Segments

/-!
# WikiPress.Files.Path

Paths as texts.

A path is kept as it was written, because it is shown again in messages; what it means
is read off its segments. Empty segments and the segment `.` say nothing, except in
front: an empty first segment makes the path absolute.

Design points:

* The functions look at the segments from the end, since that is where names, parents
  and extensions are.
* `join` and `parent` never touch the part of the text they keep.
-/

namespace WikiPress.Files

open WikiPress.Text (segmentsOf joinSegments)

/-- Whether a path starts at the root. -/
def isAbsolute (path : String) : Bool :=
  path.toList.head? == some '/'

/-- A path as seen from a directory. -/
def join (directory path : String) : String :=
  if isAbsolute path || directory.isEmpty then path
  else if directory.toList.getLast? == some '/' then directory ++ path
  else directory ++ "/" ++ path

/-- Drops the segments that say nothing from the front of a reversed list of segments.
The very first segment of the path always stays. -/
def trimSegments : List (List Char) → List (List Char)
  | s :: t :: r => if s = [] ∨ s = ['.'] then trimSegments (t :: r) else s :: t :: r
  | short => short

/-- The segments of a path from the last one that says something back to the first. -/
def reversedSegments (path : String) : List (List Char) :=
  trimSegments (segmentsOf path.toList).reverse

/-- The path of a reversed list of segments. -/
def ofReversedSegments (segments : List (List Char)) : String :=
  if segments = [[]] then "/" else String.ofList (joinSegments segments.reverse)

/-- The directory a path lies in. The root and the empty path lie in none. -/
def parent (path : String) : Option String :=
  match reversedSegments path with
  | [] | [[]] => none
  | [_] => some ""
  | _ :: rest => some (ofReversedSegments (trimSegments rest))

/-- The name a path ends in, if it ends in one. -/
def fileName (path : String) : Option String :=
  match reversedSegments path with
  | [] => none
  | s :: _ => if s = [] ∨ s = ['.'] ∨ s = ['.', '.'] then none else some (String.ofList s)

/-- A file name in front of and behind its last dot. A dot in front of everything else
separates nothing. -/
def splitExtension (name : List Char) : List Char × Option (List Char) :=
  let backwards := name.reverse
  let extension := backwards.takeWhile (· ≠ '.')
  match backwards.drop extension.length with
  | _ :: stem@(_ :: _) => (stem.reverse, some extension.reverse)
  | _ => (name, none)

/-- The name a path ends in, without its extension. -/
def fileStem (path : String) : Option String :=
  (fileName path).map fun name => String.ofList (splitExtension name.toList).1

/-- The extension of the name a path ends in. -/
def extension (path : String) : Option String :=
  (fileName path).bind fun name => (splitExtension name.toList).2.map String.ofList

end WikiPress.Files
