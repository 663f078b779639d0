import WikiPress.Markdown.Emphasis
import WikiPress.Markdown.LinkParts
import WikiPress.Markdown.RawMarkup

/-!
# WikiPress.Markdown.Inline

The inlines of a leaf.

Design points:

* The source is read once from left to right. `Scan.step` takes the construct in front
  of it: an escape, a reference, a code span, raw markup, a link in angle brackets, a
  run of markers, a bracket or a line break.
* Brackets are kept on a stack with what stood in front of them. A closing bracket
  makes a link or image of the innermost one if a destination follows or its text is a
  label; otherwise both are text. A link inside a link is not allowed, so a finished
  link puts the outer link brackets out of use.
* Runs of markers are paired once the text they stand in is complete (`resolve`).
* Every construct takes a glyph at least, so a source has no more constructs than glyphs.
-/

namespace WikiPress.Markdown

open WikiPress.Markup (Inline LinkKind)
open WikiPress.Text

/-- An open bracket. -/
structure Bracket where
  image : Bool
  /-- Whether it may still become a link or image. -/
  active : Bool := true
  /-- The pieces in front of it, latest first. -/
  before : List Piece
  /-- The source after it. -/
  inside : Source
  deriving Repr

/-- The state of reading. -/
structure Scan where
  /-- Plain characters not yet a piece, latest first. -/
  text : List Char := []
  /-- The pieces after the innermost bracket, latest first. -/
  pieces : List Piece := []
  /-- The open brackets, innermost first. -/
  brackets : List Bracket := []
  /-- The source from the latest construct on. -/
  latest : Source := []
  deriving Repr

namespace Scan

/-- Makes the plain characters read so far a piece. -/
def flush (s : Scan) : Scan :=
  if s.text.isEmpty then s
  else { s with text := [], pieces := .inline (.text (String.ofList s.text.reverse)) :: s.pieces }

/-- Adds a plain character. -/
def push (s : Scan) (c : Char) : Scan := { s with text := c :: s.text }

/-- Adds a piece. -/
def add (s : Scan) (p : Piece) : Scan :=
  let s := s.flush
  { s with pieces := p :: s.pieces }

/-- Adds an inline. -/
def addInline (s : Scan) (i : Inline) : Scan := s.add (.inline i)

/-- Adds a piece of plain text. -/
def addText (s : Scan) (cs : List Char) : Scan := s.addInline (.text (String.ofList cs))

/-- The character in front of a position behind the latest construct; a line feed at the very
start. -/
def previous (s : Scan) (position : Source) : Char :=
  ((Source.upTo s.latest position).getLast?.map Glyph.lastChar).getD '\n'

end Scan

/-! ### Code spans -/

/-- The source up to the first run of exactly so many backticks, and the source after it. -/
def untilBackticks (count : Nat) (s : Source) : Option (Source × Source) :=
  go s.length s
where
  /-- Reads on, for at most so many steps. -/
  go : Nat → Source → Option (Source × Source)
    | 0, _ => none
    | _, [] => none
    | n + 1, g :: r =>
        if g.eqChar '\x60' then
          let run := (g :: r).takeWhile (·.eqChar '\x60')
          let rest := (g :: r).dropWhile (·.eqChar '\x60')
          if run.length = count then some ([], rest)
          else (go n rest).map fun (inner, rest) => (run ++ inner, rest)
        else (go n r).map fun (inner, rest) => (g :: inner, rest)

/-- The characters of a code span: line breaks are spaces, and in a table an escaped pipe is
a pipe. -/
def codeChars (inTable : Bool) : Source → List Char
  | .char '\\' :: .char '|' :: r =>
      if inTable then '|' :: codeChars inTable r else '\\' :: '|' :: codeChars inTable r
  | .char c :: r => c :: codeChars inTable r
  | .lineBreak .. :: r => ' ' :: codeChars inTable r
  | [] => []

/-- The text of a code span: one space or line break is dropped at either end if both ends
have one, unless the span is written with spaces alone. -/
def codeText (inTable : Bool) (s : Source) : String :=
  let cs := codeChars inTable s
  String.ofList <|
    if cs.head? = some ' ' && cs.getLast? = some ' ' && !s.all (·.eqChar ' ') then
      (cs.drop 1).dropLast
    else cs

/-! ### Links in angle brackets -/

/-- A URI, read after its angle bracket, and the source after the closing one. -/
def autolinkUri? (s : Source) : Option (List Char × Source) :=
  match s with
  | .char first :: r =>
      let scheme := r.takeWhile
        (Glyph.isChar fun c => c.isAlphanum || c = '.' || c = '-' || c = '+')
      if first.isAlpha && 1 ≤ scheme.length && scheme.length ≤ 31 then
        match r.drop scheme.length with
        | .char ':' :: r =>
            let rest := r.dropWhile (Glyph.isChar fun c => ' ' < c && c != '<' && c != '>')
            match rest with
            | .char '>' :: after => some ((Source.upTo s rest).plain, after)
            | _ => none
        | _ => none
      else none
  | _ => none

/-- Whether a character may stand in front of the at sign of an address. -/
def isAddressChar (c : Char) : Bool :=
  c.isAlphanum || ".!#$%&'*+/=?^_\x60\x7b|\x7d~-".toList.contains c

/-- The source after a domain name: labels of letters, digits and inner hyphens, at most 63
characters long. -/
def domain? (s : Source) : Option Source :=
  go s.length s
where
  /-- Reads on, for at most so many labels. -/
  go : Nat → Source → Option Source
    | 0, _ => none
    | n + 1, s =>
        let isLabelChar := Glyph.isChar fun c => c.isAlphanum || c = '-'
        let label := s.takeWhile isLabelChar
        let rest := s.dropWhile isLabelChar
        if label.isEmpty || label.length > 63 || label.head?.any (·.eqChar '-') ||
            label.getLast?.any (·.eqChar '-') then none
        else
          match rest with
          | .char '.' :: r => go n r
          | _ => some rest

/-- An address, read after its angle bracket, and the source after the closing one. -/
def autolinkAddress? (s : Source) : Option (List Char × Source) :=
  let r := s.dropWhile (Glyph.isChar isAddressChar)
  match r with
  | .char '@' :: r' =>
      if r.length < s.length then
        match domain? r' with
        | some (.char '>' :: after) =>
            some ((Source.upTo s (.char '>' :: after)).plain, after)
        | _ => none
      else none
  | _ => none

/-- A link in angle brackets, read after the first. -/
def autolink? (s : Source) : Option (LinkKind × String × Source) :=
  match autolinkUri? s with
  | some (uri, rest) => some (.autolink, String.ofList uri, rest)
  | none =>
      (autolinkAddress? s).map fun (address, rest) => (.email, String.ofList address, rest)

/-! ### Runs of markers -/

/-- Whether a run of markers between two characters may open: what follows is not blank, and
the run stands at the start of a word or may stand inside one. -/
def runOpens (marker : Char) (length : Nat) (previous : Char) (next : Option Char) : Bool :=
  match next with
  | none => false
  | some next =>
      !isBlank next &&
        ((marker = '*' && !isPunctuation next) || (marker = '~' && length > 1) ||
          (marker = '~' && previous = '~' && !isPunctuation next) ||
          isBlank previous || isPunctuation previous)

/-- Whether a run of markers between two characters may close: what precedes is not blank, and
the run stands at the end of a word or may stand inside one. -/
def runCloses (marker : Char) (length : Nat) (previous : Char) (next : Option Char) : Bool :=
  !isBlank previous &&
    match next with
    | none => true
    | some next =>
        ((marker = '*' || (marker = '~' && length > 1)) && !isPunctuation previous) ||
          (marker = '~' && previous = '~') || isBlank next || isPunctuation next

/-! ### Links and images -/

/-- The destination and title of a link or image, by its kind, and the source after it. -/
structure Target where
  kind : LinkKind
  destination : String
  title : String
  rest : Source
  deriving Repr

/-- The definition with a key. -/
def lookupDefinition (definitions : List Definition) (key : List Char) : Option Definition :=
  definitions.find? (·.key = key)

/-- Passes over a backslash that escapes what follows. -/
def passEscape : Source → Source
  | .char '\\' :: .char c :: r =>
      if isAsciiPunctuation c then .char c :: r else .char '\\' :: .char c :: r
  | s => s

/-- What a bracket refers to when its own text is the label. -/
def ownTarget (definitions : List Definition) (b : Bracket) (rest : Source) (kind : LinkKind)
    (after : Source) : Option Target := do
  let (key, labelRest) ← Source.label? b.inside
  if labelRest.length = rest.length then
    let d ← lookupDefinition definitions key
    some ⟨kind, d.destination, d.title, after⟩
  else none

/-- What a closed bracket refers to, read after the closing bracket: a destination in
parentheses, a label in brackets, or its own text as a label. -/
def target? (definitions : List Definition) (inTable : Bool) (b : Bracket) (rest : Source) :
    Option Target :=
  let inline := match rest with
    | .char '(' :: r => Source.inlineTail? inTable r
    | _ => none
  match inline with
  | some (destination, title, after) => some ⟨.inline, destination, title, after⟩
  | none =>
      match passEscape rest with
      | .char '[' :: .char ']' :: after => ownTarget definitions b rest .collapsed after
      | .char '[' :: r =>
          match Source.label? r with
          | some (key, after) =>
              (lookupDefinition definitions key).map fun d =>
                ⟨.reference, d.destination, d.title, after⟩
          | none => ownTarget definitions b rest .shortcut rest
      | _ => ownTarget definitions b rest .shortcut rest

/-- The opening bracket as text. -/
def Bracket.text (b : Bracket) : Piece :=
  .inline (.text (if b.image then "![" else "["))

/-- Gives the innermost bracket up as text. -/
def Scan.abandon (s : Scan) (b : Bracket) (outer : List Bracket) : Scan :=
  { s with pieces := s.pieces ++ b.text :: b.before, brackets := outer }

/-- A closing bracket, with the source after it. -/
def Scan.closeBracket (definitions : List Definition) (inTable : Bool) (s : Scan)
    (rest : Source) : Scan × Source :=
  let s := s.flush
  match s.brackets with
  | [] => (s.addText [']'], rest)
  | b :: outer =>
      match if b.active then target? definitions inTable b rest else none with
      | none => ((s.abandon b outer).addText [']'], rest)
      | some t =>
          let body := resolve s.pieces.reverse
          let made : Inline :=
            if b.image then .image t.destination t.title body
            else .link t.kind t.destination t.title body
          let outer :=
            if b.image then outer
            else outer.map fun o => if o.image then o else { o with active := false }
          ({ s with pieces := .inline made :: b.before, brackets := outer }, t.rest)

/-! ### Reading -/

/-- The blanks and the line break in front of a source, if that is what comes next: how many
blanks there are, and the source after the break and the blanks that follow it. -/
def breakAhead? (s : Source) : Option (Nat × Source) :=
  let blanks := (s.takeWhile (Glyph.isChar isLineBlank)).length
  match s.drop blanks with
  | .lineBreak .. :: r => some (blanks, r.dropWhile (Glyph.isChar isSpaceOrTab))
  | _ => none

/-- A backtick run of a length, whose first backtick may be escaped: a code span, or text. -/
def Scan.backticks (inTable : Bool) (s : Scan) (length : Nat) (rest : Source) : Scan × Source :=
  match if length = 0 then none else untilBackticks length rest with
  | some (inner, after) => (s.addInline (.code (codeText inTable inner)), after)
  | none => (s.addText (List.replicate length '\x60'), rest)

/-- An angle bracket, with the source after it. -/
def Scan.angle (s : Scan) (rest : Source) : Scan × Source :=
  let inside := passEscape rest
  match autolink? inside with
  | some (kind, destination, after) =>
      let shown := (Source.upTo rest after).plain.dropLast
      (s.addInline (.link kind destination "" [.text (String.ofList shown)]), after)
  | none =>
      match Source.inlineMarkup? inside with
      | some (_, after) =>
          let written := match inside with
            | .char '!' :: _ => (Source.upTo rest after).raw
            | .char '?' :: _ => (Source.upTo rest after).raw
            | _ => (Source.upTo rest after).plain
          (s.addInline (.html (String.ofList ('<' :: written))), after)
      | none => (s.addText ['<'], rest)

/-- A run of markers, with the character in front and the source after it. -/
def Scan.markers (s : Scan) (previous marker : Char) (length : Nat) (rest : Source) :
    Scan × Source :=
  let next := rest.head?.map Glyph.firstChar
  let opens := runOpens marker length previous next
  let closes := runCloses marker length previous next
  if (opens || closes) && (marker != '~' || length ≤ 2) then
    (s.add (.run ⟨marker, length, opens, closes⟩), rest)
  else ({ s with text := List.replicate length marker ++ s.text }, rest)

/-- The character after a backslash, with the source after it. -/
def Scan.escape (inTable : Bool) (s : Scan) (c : Char) (rest : Source) : Scan × Source :=
  if c = '\x60' then
    let more := (rest.takeWhile (·.eqChar '\x60')).length
    let after := rest.drop more
    match if more = 0 then none else untilBackticks more after with
    | some (inner, after) =>
        ((s.addText ['\x60']).addInline (.code (codeText inTable inner)), after)
    | none => (s.addText (List.replicate (more + 1) '\x60'), after)
  else if inTable && c = '\\' && rest.head?.any (·.eqChar '|') then (s.flush.push '|', rest.drop 1)
  else (s.flush.push c, rest)

/-- Reads the construct in front of a source that begins with a character. -/
def Scan.step (definitions : List Definition) (inTable : Bool) (s : Scan) (c : Char)
    (rest : Source) : Scan × Source :=
  match c with
  | '\\' =>
      match rest with
      | .lineBreak .. :: r =>
          (s.add .backslashBreak, r.dropWhile (Glyph.isChar isSpaceOrTab))
      | .char d :: r =>
          if isAsciiPunctuation d then s.escape inTable d r else (s.push '\\', rest)
      | [] => (s.push '\\', rest)
  | '\x60' =>
      let more := (rest.takeWhile (·.eqChar '\x60')).length
      s.backticks inTable (more + 1) (rest.drop more)
  | '<' => s.angle rest
  | '!' =>
      match rest with
      | .char '[' :: r =>
          let s := s.flush
          ({ s with pieces := [], brackets := ⟨true, true, s.pieces, r⟩ :: s.brackets }, r)
      | _ => (s.push '!', rest)
  | '[' =>
      let s := s.flush
      ({ s with pieces := [], brackets := ⟨false, true, s.pieces, rest⟩ :: s.brackets }, rest)
  | ']' => s.closeBracket definitions inTable rest
  | '&' =>
      match Source.characterReference? rest with
      | some (image, after) => (s.addText image, after)
      | none => (s.push '&', rest)
  | c =>
      if c = '*' || c = '_' || c = '~' then
        let more := (rest.takeWhile (·.eqChar c)).length
        s.markers (s.previous (.char c :: rest)) c (more + 1) (rest.drop more)
      else (s.push c, rest)

/-- Reads one construct of a source that is not empty. -/
def Scan.next (definitions : List Definition) (inTable : Bool) (s : Scan) :
    Source → Scan × Source
  | [] => (s, [])
  | g :: rest =>
      match breakAhead? (g :: rest) with
      | some (blanks, after) =>
          (if blanks ≥ 2 then s.add .blankBreak else s.addInline .softBreak, after)
      | none =>
          match g with
          | .char c => s.step definitions inTable c rest
          | .lineBreak .. => (s.addInline .softBreak, rest)

/-- The pieces of a whole source; brackets still open are text. -/
def Scan.finish (s : Scan) : List Piece :=
  let s := s.flush
  (s.brackets.foldl (fun pieces b => pieces ++ b.text :: b.before) s.pieces).reverse

/-- Reads a source, for at most so many constructs. -/
def Scan.readUpTo (definitions : List Definition) (inTable : Bool) :
    Nat → Scan → Source → List Piece
  | 0, s, _ => s.finish
  | _, s, [] => s.finish
  | n + 1, s, g :: r =>
      let (s', rest) := s.next definitions inTable (g :: r)
      readUpTo definitions inTable n { s' with latest := g :: r } rest

/-- The pieces of a source. -/
def Scan.read (definitions : List Definition) (inTable : Bool) (source : Source) :
    List Piece :=
  readUpTo definitions inTable source.length {} source

/-- The inlines of a leaf. -/
def inlines (definitions : List Definition) (inTable : Bool) (source : Source) : List Inline :=
  resolve (Scan.read definitions inTable source)

end WikiPress.Markdown
