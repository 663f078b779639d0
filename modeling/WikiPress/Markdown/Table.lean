import WikiPress.Markdown.Source
import WikiPress.Markup.Event
import WikiPress.Text.Punctuation

/-!
# WikiPress.Markdown.Table

The rows of tables.

Design points:

* A table begins with a header row over a delimiter row of as many columns. The columns
  of a header row are counted by its pipes, one more than there are if the row does not
  begin and end with one.
* Cells are split before anything else is read: a pipe belongs to a cell only behind a
  backslash, also inside code spans.
* A row has as many cells as the table has columns: missing ones are empty and surplus
  ones are dropped.
-/

namespace WikiPress.Markdown

open WikiPress.Markup (ColumnAlignment)
open WikiPress.Text

/-- What is known of a column of a delimiter row while it is read. -/
structure DelimiterColumn where
  alignment : ColumnAlignment := .unset
  /-- Whether anything but blanks was read. -/
  begun : Bool := false
  hyphen : Bool := false
  deriving DecidableEq, Repr

/-- Takes a character into a column of a delimiter row. -/
def DelimiterColumn.read (c : DelimiterColumn) (x : Char) : Option DelimiterColumn :=
  if x = ' ' then some c
  else if x = '-' then some { c with begun := true, hyphen := true }
  else if x = ':' then
    let alignment := match c.begun, c.alignment with
      | false, .unset => ColumnAlignment.left
      | true, .left => .center
      | true, .unset => .right
      | _, a => a
    some { c with begun := true, alignment }
  else none

/-- The columns of a delimiter row, read on from inside a column. -/
def delimiterColumns (c : DelimiterColumn) : List Char → Option (List ColumnAlignment)
  | [] =>
      if !c.begun then some [] else if c.hyphen then some [c.alignment] else none
  | '|' :: r =>
      if c.hyphen then (delimiterColumns {} r).map (c.alignment :: ·) else none
  | x :: r =>
      match c.read x with
      | some c => delimiterColumns c r
      | none => none

/-- The columns of a line that is a delimiter row. It has a pipe, a hyphen in every column, and
less than four spaces in front. -/
def delimiterRow? (line : List Char) : Option (List ColumnAlignment) :=
  let row := line.dropWhile (· = ' ')
  if row.length + 3 < line.length || !row.contains '|' || !row.contains '-' then none
  else
    delimiterColumns {} (match row with
      | '|' :: r => r
      | r => r)

/-- How many pipes of a line are not escaped, and what follows the last of them. If `paired`,
a backslash behind a backslash escapes nothing. -/
def countPipes (paired : Bool) (line : List Char) : Nat × List Char :=
  go false 0 line line
where
  /-- Reads on, with whether the character in front escapes. -/
  go (escaped : Bool) (count : Nat) (last : List Char) : List Char → Nat × List Char
    | [] => (count, last)
    | '\\' :: r => go (!(paired && escaped)) count last r
    | '|' :: r => if escaped then go false count last r else go false (count + 1) r r
    | _ :: r => go false count last r

/-- How many columns a header row has, if it has a pipe at all. -/
def headerColumns? (paired : Bool) (line : List Char) : Option Nat :=
  let (pipes, last) := countPipes paired line
  if pipes = 0 then none
  else
    let inner := if (line.dropWhile isLineBlank).head? = some '|' then pipes - 1 else pipes
    some (if last.all isLineBlank then inner else inner + 1)

/-- The cells of a row as written. -/
def splitCells (row : List Char) : List (List Char) :=
  go [] '|' row
where
  /-- Reads on, with the current cell in reverse and the character in front. -/
  go (cell : List Char) (previous : Char) : List Char → List (List Char)
    | [] => if cell.all isLineBlank then [] else [trim isLineBlank cell.reverse]
    | c :: r =>
        if c = '|' && previous != '\\' then trim isLineBlank cell.reverse :: go [] c r
        else go (c :: cell) c r

/-- The cells of a row without the pipe at its start. -/
def rowCells (row : List Char) : List (List Char) :=
  match row.dropWhile isLineBlank with
  | '|' :: r => splitCells r
  | r => splitCells r

/-- Fills or cuts a row to a count of cells. -/
def fitCells (columns : Nat) (cells : List (List Char)) : List (List Char) :=
  cells.take columns ++ List.replicate (columns - cells.length) []

end WikiPress.Markdown
