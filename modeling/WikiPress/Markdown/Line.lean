import WikiPress.Text.Blank

/-!
# WikiPress.Markdown.Line

Lines, and the margin in front of them.

Design points:

* A line ends with a line feed, a carriage return or both, or with the text.
  Functions that read lines return the rest of the text.
* A `Cursor` stands inside a margin. Tabs reach to the next multiple of four columns,
  and a tab may be used up in part: `spaces` is what is left of it.
-/

namespace WikiPress.Markdown

open WikiPress.Text (isLineBlank isSpaceOrTab)

/-- The line ending in front of a text, and the text after it; the end of the text counts
as an empty ending. -/
def lineEnding? : List Char → Option (String × List Char)
  | [] => some ("", [])
  | '\n' :: r => some ("\n", r)
  | '\r' :: '\n' :: r => some ("\r\n", r)
  | '\r' :: r => some ("\r", r)
  | _ => none

/-- Whether a line ends in front of a text. -/
def atLineEnd (cs : List Char) : Bool := (lineEnding? cs).isSome

/-- The text after the current line, if only blanks are left of that line. -/
def afterBlankLine? (cs : List Char) : Option (List Char) :=
  (lineEnding? (cs.dropWhile isLineBlank)).map (·.2)

/-- Whether only blanks are left of the current line. -/
def blankLine (cs : List Char) : Bool := (afterBlankLine? cs).isSome

/-- The rest of the current line, its ending, and the text after it. -/
def splitLine : List Char → List Char × String × List Char
  | [] => ([], "", [])
  | c :: r =>
      match lineEnding? (c :: r) with
      | some (ending, rest) => ([], ending, rest)
      | none =>
          let (line, ending, rest) := splitLine r
          (c :: line, ending, rest)

/-- The text up to the next line feed, which is included, and the text after it. Raw
blocks are cut here: a lone carriage return does not end their lines. -/
def splitRawLine : List Char → List Char × List Char
  | [] => ([], [])
  | '\n' :: r => (['\n'], r)
  | c :: r =>
      let (line, rest) := splitRawLine r
      (c :: line, rest)

/-- How often a character is repeated in front of a text, and the text after it. -/
def countRun (c : Char) (cs : List Char) : Nat × List Char :=
  let rest := cs.dropWhile (· = c)
  (cs.length - rest.length, rest)

/-- A position in the margin of a line. -/
structure Cursor where
  rest : List Char
  /-- Characters since the last tab stop reached by a tab. -/
  column : Nat := 0
  /-- Columns of the last tab that are not used up. -/
  spaces : Nat := 0
  deriving Repr

/-- The start of a line. -/
def Cursor.start (cs : List Char) : Cursor := { rest := cs }

/-- Uses up columns of white space from a text; the first part of the result is the count
of columns that were missing. -/
def skipColumns : Nat → List Char → Nat → Nat → Nat × Cursor
  | 0, cs, column, spaces => (0, ⟨cs, column, spaces⟩)
  | n + 1, ' ' :: r, column, _ => skipColumns n r (column + 1) 0
  | n + 1, '\t' :: r, column, _ =>
      let width := 4 - column % 4
      if width ≤ n + 1 then skipColumns (n + 1 - width) r 0 0
      else (0, ⟨r, 0, width - (n + 1)⟩)
  | n + 1, cs, column, spaces => (n + 1, ⟨cs, column, spaces⟩)

/-- Uses up columns of white space; the first part of the result is the count of columns
that were missing. -/
def Cursor.skip (c : Cursor) (n : Nat) : Nat × Cursor :=
  let used := min n c.spaces
  skipColumns (n - used) c.rest c.column (c.spaces - used)

/-- Uses up at most so many columns; the first part of the result is how many. -/
def Cursor.skipUpTo (c : Cursor) (n : Nat) : Nat × Cursor :=
  let (missing, c') := c.skip n
  (n - missing, c')

/-- Moves past a run of characters that are no tabs. -/
def Cursor.advance (c : Cursor) (n : Nat) : Cursor :=
  { c with rest := c.rest.drop n, column := c.column + n }

/-- Moves past all white space. -/
def Cursor.skipAll (c : Cursor) : List Char :=
  c.rest.dropWhile isSpaceOrTab

/-- What is left of a tab, as spaces. -/
def Cursor.pending (c : Cursor) : String :=
  String.ofList (List.replicate c.spaces ' ')

/-- The characters between a text and a later position in it. -/
def between (cs rest : List Char) : List Char :=
  cs.take (cs.length - rest.length)

end WikiPress.Markdown
