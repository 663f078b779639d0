import WikiPress.Markup.Document

/-!
# WikiPress.Markdown.Emphasis

Pairing runs of emphasis markers.

Design points:

* The pieces of a text are finished inlines, line breaks and runs of markers. `resolve`
  goes through them once with a stack of the runs that may still open something; each
  entry of the stack holds what stands between the entry below and itself.
* A closing run takes the nearest opener of its kind that suits it; what opened in
  between is plain text. Pairs of markers are strong, single ones emphasis, and the
  innermost are paired first.
* Tildes pair only with a run of the same length. A closing run of tildes that finds no
  opener bars every opener below it from later runs of tildes.
-/

namespace WikiPress.Markdown

open WikiPress.Markup (Inline)

/-- A run of emphasis markers. -/
structure Run where
  marker : Char
  count : Nat
  opens : Bool
  closes : Bool
  deriving DecidableEq, Repr

/-- A piece of running text. -/
inductive Piece
  | inline (i : Inline)
  | run (r : Run)
  /-- A line break that a backslash makes hard. -/
  | backslashBreak
  /-- A line break that blanks at the end of its line make hard. -/
  | blankBreak
  deriving Repr

/-- A run that may still open something. -/
structure Opener where
  marker : Char
  /-- Markers not yet paired. -/
  count : Nat
  /-- Markers the run was written with. -/
  length : Nat
  /-- Whether the run might also close. -/
  both : Bool
  /-- What stands in front of the run, back to the opener below, latest first. -/
  before : List Inline
  deriving Repr

/-- The state of the pairing. -/
structure Pairing where
  /-- The openers, latest first. -/
  openers : List Opener := []
  /-- What stands after the latest opener, latest first. -/
  after : List Inline := []
  /-- How many of the lowest openers runs of tildes may not use. -/
  barred : Nat := 0
  deriving Repr

/-- Markers as plain text. -/
def markerText (marker : Char) (count : Nat) : Inline :=
  .text (String.ofList (List.replicate count marker))

/-- What stands after an opener that opens nothing, together with it. -/
def Opener.flatten (o : Opener) (after : List Inline) : List Inline :=
  after ++ markerText o.marker o.count :: o.before

/-- Whether a closing run may take an opener: two runs of which one might do both must not
add up to a multiple of three, unless each is one. -/
def Opener.suits (o : Opener) (marker : Char) (length : Nat) (both : Bool) : Bool :=
  o.marker = marker &&
    (if marker = '~' then o.length = length
     else (!both && !o.both) || (length + o.length) % 3 != 0 || length % 3 = 0)

/-- The nearest opener that suits a closing run, with what follows it and the openers below;
those above it become text. -/
def takeOpener (marker : Char) (length : Nat) (both : Bool) (barred : Nat) :
    List Opener → List Inline → Option (Opener × List Inline × List Opener)
  | [], _ => none
  | o :: os, after =>
      if marker = '~' && os.length < barred then none
      else if o.suits marker length both then some (o, after, os)
      else takeOpener marker length both barred os (o.flatten after)

/-- The inline a pair of markers makes. -/
def pairInline (marker : Char) (double : Bool) (body : List Inline) : Inline :=
  if marker = '~' then .strikethrough body
  else if double then .strong body
  else .emphasis body

/-- Puts a count of paired markers around a body, the innermost pairs first. -/
def wrap (marker : Char) : Nat → List Inline → List Inline
  | 0, body => body
  | 1, body => [pairInline marker false body]
  | n + 2, body => wrap marker n [pairInline marker true body]

/-- Pairs the markers of a closing run as far as openers suit it; the result counts the
markers left over. -/
def Pairing.close (marker : Char) (length : Nat) (both : Bool) :
    Nat → Nat → Pairing → Nat × Pairing
  | 0, count, p => (count, p)
  | fuel + 1, count, p =>
      match count with
      | 0 => (0, p)
      | count =>
          match takeOpener marker length both p.barred p.openers p.after with
          | none =>
              (count, if marker = '~' then { p with barred := p.openers.length } else p)
          | some (o, after, below) =>
              let used := min count o.count
              let made := wrap marker used after.reverse
              let barred := min p.barred below.length
              let p :=
                if used < o.count then
                  { openers := { o with count := o.count - used } :: below, after := made, barred }
                else { openers := below, after := made ++ o.before, barred }
              close marker length both fuel (count - used) p

/-- Takes a run of markers into the pairing. -/
def Pairing.run (p : Pairing) (r : Run) : Pairing :=
  let both := r.opens && r.closes
  let (count, p) := if r.closes then p.close r.marker r.count both r.count r.count else (r.count, p)
  if count = 0 then p
  else if r.opens then
    { openers := ⟨r.marker, count, r.count, both, p.after⟩ :: p.openers
      after := []
      barred := if r.marker = '~' then min p.barred p.openers.length else p.barred }
  else { p with after := markerText r.marker count :: p.after }

/-- Takes a piece into the pairing. -/
def Pairing.piece (p : Pairing) : Piece → Pairing
  | .inline i => { p with after := i :: p.after }
  | .run r => p.run r
  | .backslashBreak => { p with after := .hardBreak :: p.after }
  | .blankBreak => { p with after := .hardBreak :: p.after }

/-- The inlines of a finished pairing: what still opens is text. -/
def Pairing.finish (p : Pairing) : List Inline :=
  (p.openers.foldl (fun after o => o.flatten after) p.after).reverse

/-- Whether a piece is a run of markers. -/
def Piece.isRun : Piece → Bool
  | .run _ => true
  | _ => false

/-- The pieces of a text, a hard break at its very end undone where markers are paired: a
backslash is itself again, and blanks are nothing. -/
def undoFinalBreak (pieces : List Piece) : List Piece :=
  if pieces.any Piece.isRun then
    match pieces.getLast? with
    | some .backslashBreak => pieces.dropLast ++ [.inline (.text "\\")]
    | some .blankBreak => pieces.dropLast
    | _ => pieces
  else pieces

/-- The inlines a sequence of pieces makes. -/
def resolve (pieces : List Piece) : List Inline :=
  ((undoFinalBreak pieces).foldl Pairing.piece {}).finish

end WikiPress.Markdown
