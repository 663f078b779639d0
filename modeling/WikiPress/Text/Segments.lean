/-!
# WikiPress.Text.Segments

A path as the list of its segments: what stands between the slashes.
-/

namespace WikiPress.Text

/-- The segments between the slashes of a path, the empty ones included. -/
def segmentsOf (path : List Char) : List (List Char) :=
  go [] path
where
  /-- Reads on, with the characters of the current segment in reverse. -/
  go (segment : List Char) : List Char → List (List Char)
    | [] => [segment.reverse]
    | c :: r => if c = '/' then segment.reverse :: go [] r else go (c :: segment) r

/-- The path with the given segments. -/
def joinSegments (segments : List (List Char)) : List Char :=
  ['/'].intercalate segments

end WikiPress.Text
