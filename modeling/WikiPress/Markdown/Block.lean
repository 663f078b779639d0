import WikiPress.Markdown.Container
import WikiPress.Markdown.Heading
import WikiPress.Markdown.RawMarkup
import WikiPress.Markdown.Table

/-!
# WikiPress.Markdown.Block

The blocks of a document.

Design points:

* A document is read one block start at a time: the margins of the open containers are
  matched, new containers are opened, and the leaf in front is read with all its lines
  (`Draft.step`). Each step is checked to shorten the text.
* A paragraph goes on over every line that does not begin something that may interrupt it,
  also when the line lacks the margins of the containers (`continuation`).
* A paragraph may turn out to be a heading, by a line under it, or the header row of a
  table, by a delimiter row under its first line.
* After a task marker the rest of an item's first line is always a paragraph.
-/

namespace WikiPress.Markdown

open WikiPress.Markup (ColumnAlignment Block HeadingLevel RawLine)
open WikiPress.Text

/-! ### Starts of blocks -/

/-- Whether a text begins with a thematic break: three or more equal marks alone on a line. -/
def isRule (cs : List Char) : Bool :=
  match cs with
  | c :: _ =>
      (c = '*' || c = '-' || c = '_') &&
        (let line := (splitLine cs).1
         line.all (fun x => x = c || isSpaceOrTab x) && 3 ≤ line.count c)
  | [] => false

/-- The fence that begins a text: its character, its length, and the text after it. The info
string of a fence of backticks holds no backtick. -/
def fence? : List Char → Option (Char × Nat × List Char)
  | c :: r =>
      if c = '\x60' || c = '~' then
        let (more, rest) := countRun c r
        if more < 2 || (c = '\x60' && (splitRawLine rest).1.contains c) then none
        else some (c, more + 1, rest)
      else none
  | [] => none

/-- The text after a fence that closes one of a length, if that begins the text. The end of
the text closes every fence. -/
def closingFence? (c : Char) (length : Nat) (cs : List Char) : Option (List Char) :=
  if cs.isEmpty then some []
  else
    let (count, rest) := countRun c cs
    let rest := rest.dropWhile (· = ' ')
    if count < length || !atLineEnd rest then none else some rest

/-- A list marker: its last character, the first number of a numbered list, and the length it
is written with. -/
def listMarker? : List Char → Option (Char × Option Nat × Nat)
  | c :: r =>
      if c = '-' || c = '+' || c = '*' then some (c, none, 1)
      else
        let digits := (c :: r).takeWhile Char.isDigit
        match (c :: r).drop digits.length with
        | d :: _ =>
            if (d = '.' || d = ')') && !digits.isEmpty && digits.length ≤ 9 then
              some (d, some (decimalNumber digits), digits.length + 1)
            else none
        | [] => none
  | [] => none

/-- Whether a list item that may interrupt a paragraph begins a text. In the paragraph's own
container it may not be empty, and a numbered list has to begin with one. -/
def interruptingItem (current : Bool) (cs : List Char) : Bool :=
  match listMarker? cs with
  | some (_, start, length) =>
      let rest := cs.drop length
      (rest.head?.any isSpaceOrTab || atLineEnd rest) &&
        (!current || (start.all (· = 1) && !blankLine rest))
  | none => false

/-- Whether a table of whose header row a text is the start begins there: the row has a pipe
in front, and a delimiter row in the same containers follows. -/
def interruptingTable (containers : List Container) (cs : List Char) : Bool :=
  match cs with
  | '|' :: _ =>
      let (line, ending, rest) := splitLine cs
      let (matched, cursor) := matchContainers containers rest
      !ending.isEmpty && matched = containers.length &&
        (match headerColumns? false line, delimiterRow? (splitLine cursor.rest).1 with
         | some n, some columns => columns.length = n
         | _, _ => false)
  | _ => false

/-- Whether a text begins something that interrupts a paragraph or a table. -/
def interruptsRow (current : Bool) (cs : List Char) : Bool :=
  atLineEnd cs || isRule cs || (numberSigns? cs).isSome || (fence? cs).isSome ||
    cs.head? = some '>' || interruptingItem current cs || (rawBlockEnd? true cs).isSome

/-- Whether a text begins something that interrupts a paragraph. -/
def interrupts (containers : List Container) (current : Bool) (cs : List Char) : Bool :=
  interruptsRow current cs || interruptingTable containers cs

/-! ### Paragraphs -/

/-- What the line after a line of a paragraph is to it. -/
inductive Continuation
  /-- The line under a heading, and the text after it. -/
  | underline (level : HeadingLevel) (rest : List Char)
  /-- No part of the paragraph. -/
  | stop
  /-- Another line of the paragraph: its margin and the text after that. -/
  | line (margin : List Char) (rest : List Char)

/-- What a line is to a paragraph in the given containers. -/
def continuation (containers : List Container) (cs : List Char) : Continuation :=
  let (matched, cursor) := matchContainers containers cs
  let current := matched = containers.length
  let (missing, indented) := cursor.skip 4
  match if missing > 0 && current then underline? indented.rest else none with
  | some (level, rest) => .underline level rest
  | none =>
      if missing > 0 && interrupts containers current indented.rest then .stop
      else if atLineEnd indented.skipAll then .stop
      else .line (between cs cursor.rest) cursor.rest

/-- The text of a paragraph, the level if it is a heading, and the text after it. -/
structure ParagraphText where
  source : Source
  level : Option HeadingLevel
  rest : List Char

/-- Reads the lines of a paragraph. -/
def readParagraph (containers : List Container) (cs : List Char) : ParagraphText :=
  let (line, ending, rest) := splitLine cs
  match continuation containers rest with
  | .stop => ⟨Source.ofChars line, none, rest⟩
  | .underline level after => ⟨Source.ofChars line, some level, after⟩
  | .line margin next =>
      if next.length < cs.length then
        let p := readParagraph containers next
        { p with source :=
            Source.ofChars line ++ .lineBreak ending (String.ofList margin) :: p.source }
      else ⟨Source.ofChars line, none, rest⟩
termination_by cs.length

/-! ### Tables -/

/-- The columns of the table whose header row begins a text, and the text after its delimiter
row. -/
def tableStart? (containers : List Container) (cs : List Char) :
    Option (List ColumnAlignment × List Char) := do
  let (line, ending, rest) := splitLine cs
  let n ← headerColumns? true line
  let (matched, cursor) := matchContainers containers rest
  if ending.isEmpty || matched != containers.length then none
  else
    let (delimiters, _, after) := splitLine cursor.rest
    let columns ← delimiterRow? delimiters
    if columns.length = n then some (columns, after) else none

/-- The cells of the rows of a table, and the text after it. -/
def readRows (containers : List Container) (columns : Nat) (cs : List Char) :
    List (List (List Char)) × List Char :=
  let (matched, cursor) := matchContainers containers cs
  let row := cursor.skipAll
  if matched != containers.length || interruptsRow true row then ([], cs)
  else
    let (line, _, rest) := splitLine row
    let cells := rowCells line
    if cells.isEmpty then ([], cs)
    else if rest.length < cs.length then
      let (rows, after) := readRows containers columns rest
      (fitCells columns cells :: rows, after)
    else ([fitCells columns cells], rest)
termination_by cs.length

/-- A cell before its inlines are read. -/
def cellText (cell : List Char) : LeafText :=
  { source := Source.ofChars cell, inTable := true }

/-- Reads a paragraph, or what turns out to be a heading or a table. -/
def Draft.readText (d : Draft) (task : Option Bool) (cs : List Char) : Draft × List Char :=
  match tableStart? d.containers cs with
  | some (columns, body) =>
      let head := fitCells columns.length (rowCells (splitLine cs).1)
      let (rows, rest) := readRows d.containers columns.length body
      (d.add (.table columns (head.map cellText) (rows.map (·.map cellText))), rest)
  | none =>
      let p := readParagraph d.containers cs
      match p.level with
      | some level =>
          let (source, id) := underlinedText (Source.trimRight p.source)
          (d.add (.heading level id { source, task }), p.rest)
      | none => (d.add (.paragraph { source := Source.trimRight p.source, task }), p.rest)

/-! ### Code and raw markup -/

/-- A raw line without a carriage return in front of its last character. -/
def dropReturn (line : List Char) : List Char :=
  match line.reverse with
  | last :: '\r' :: r => (last :: r).reverse
  | _ => line

/-- A line of code: the white space left of a tab, and the text. -/
def codeLine (cursor : Cursor) : String × List Char :=
  let (line, rest) := splitRawLine cursor.rest
  (cursor.pending ++ String.ofList (dropReturn line), rest)

/-- The lines of a fenced code block after its first, and the text after the block. -/
def readFenced (containers : List Container) (indent : Nat) (c : Char) (length : Nat)
    (cs : List Char) : List String × List Char :=
  let (matched, cursor) := matchContainers containers cs
  if matched != containers.length then ([], cs)
  else
    let cursor := (cursor.skip indent).2
    let (missing, closing) := cursor.skip (4 - indent)
    match if missing > 0 then closingFence? c length closing.rest else none with
    | some rest => ([], (afterBlankLine? rest).getD rest)
    | none =>
        let (line, rest) := codeLine cursor
        if rest.length < cs.length then
          let (lines, after) := readFenced containers indent c length rest
          (line :: lines, after)
        else ([line], rest)
termination_by cs.length

/-- Reads a fenced code block, from the text after its opening fence. -/
def Draft.readFence (d : Draft) (indent : Nat) (c : Char) (length : Nat) (cs : List Char) :
    Draft × List Char :=
  let (line, rest) := splitRawLine cs
  let info := unescape false (trim isAsciiBlank line)
  let (lines, after) := readFenced d.containers indent c length rest
  (d.add (.code (some (String.ofList info)) lines), after)

/-- The lines of an indented code block with whether each is blank, and the text after the
block. -/
def readIndented (containers : List Container) (blank : Bool) (cursor : Cursor) :
    List (String × Bool) × List Char :=
  let (line, rest) := codeLine cursor
  let (matched, next) := matchContainers containers rest
  let (missing, next) := next.skip 4
  if matched != containers.length || (missing > 0 && !atLineEnd next.rest) || next.rest.isEmpty
  then ([(line, blank)], rest)
  else if next.rest.length < cursor.rest.length then
    let (lines, after) := readIndented containers (blankLine next.rest) next
    ((line, blank) :: lines, after)
  else ([(line, blank)], rest)
termination_by cursor.rest.length

/-- Reads an indented code block, whose blank lines at the end are dropped. -/
def Draft.readIndentedCode (d : Draft) (cursor : Cursor) : Draft × List Char :=
  let (lines, rest) := readIndented d.containers false cursor
  let kept := (lines.reverse.dropWhile Prod.snd).reverse
  let d := { d with lastBlank := kept.length < lines.length }
  (d.add (.code none (kept.map Prod.fst)), rest)

/-- The lines of a raw block, and the text after it. -/
def readRaw (containers : List Container) (ending : RawBlockEnd) (indent : String)
    (cs : List Char) : List RawLine × List Char :=
  let (line, rest) := splitRawLine cs
  let made : RawLine := ⟨indent, String.ofList (dropReturn line)⟩
  let (matched, cursor) := matchContainers containers rest
  let ended := match ending with
    | .containing mark => (Source.dropPast? mark (Source.ofChars line)).isSome
    | .blank => blankLine cursor.rest
  if matched != containers.length || ended || cursor.rest.isEmpty then ([made], rest)
  else if cursor.rest.length < cs.length then
    let (lines, after) := readRaw containers ending cursor.pending cursor.rest
    (made :: lines, after)
  else ([made], rest)
termination_by cs.length

/-- Reads a raw block. -/
def Draft.readRawBlock (d : Draft) (ending : RawBlockEnd) (indent : Nat) (cs : List Char) :
    Draft × List Char :=
  let (lines, rest) :=
    readRaw d.containers ending (String.ofList (List.replicate indent ' ')) cs
  (d.add (.html lines), rest)

/-! ### Link definitions -/

/-- The link definition that begins a text, and the text after it. It may reach as far as a
paragraph would. -/
def definitionStart? (containers : List Container) (cs : List Char) :
    Option (Definition × List Char) :=
  if cs.head? != some '[' then none
  else
    let source := (readParagraph containers cs).source
    (Source.definition? source).map fun (d, rest) =>
      let after := cs.drop (Source.raw (Source.upTo source rest)).length
      (d, (afterBlankLine? after).getD after)

/-! ### Containers -/

/-- A task marker in front of the text of an item: whether it is checked, and the position
after it. -/
def taskMarker? (cursor : Cursor) : Option (Bool × Cursor) :=
  let cursor := (cursor.skipUpTo 3).2
  match cursor.rest with
  | '[' :: c :: ']' :: b :: _ =>
      let checked := c = 'x' || c = 'X'
      if (checked || isLineBlank c) && isAsciiBlank b then some (checked, cursor.advance 3)
      else none
  | _ => none

/-- The list marker in front of a text: its last character, the first number, the indentation
of the item's text, and the position after the marker. -/
def itemStart? (indent : Nat) (cursor : Cursor) : Option (Char × Option Nat × Nat × Cursor) := do
  if isRule cursor.rest then none
  else
    let (marker, start, length) ← listMarker? cursor.rest
    let (missing, after) := (cursor.advance length).skip 1
    if missing > 0 && !atLineEnd after.rest then none
    else
      let indent := indent + length + 1
      if blankLine after.rest then some (marker, start, indent, after)
      else
        let (extra, inner) := after.skipUpTo 4
        if extra < 4 then some (marker, start, indent + extra, inner)
        else some (marker, start, indent, after)

/-- What is left of a line once its containers are open. -/
inductive Opened
  /-- Nothing: the text after the line. -/
  | nothing (rest : List Char)
  /-- A paragraph behind a task marker. -/
  | task (checked : Bool) (rest : List Char)
  /-- A leaf or a blank line. -/
  | leaf (cursor : Cursor)

/-- Opens the containers that begin in front of a text. -/
def Draft.openContainers (d : Draft) (cursor : Cursor) : Draft × Opened :=
  let (indent, inner) := cursor.skipUpTo 4
  if indent ≥ 4 then (d, .leaf cursor)
  else
    match itemStart? indent inner with
    | some (marker, start, width, after) =>
        let d := (d.continueList marker start).openItem width
        match afterBlankLine? after.rest with
        | some rest => ({ d with emptyItem := true }, .nothing rest)
        | none =>
            match taskMarker? after with
            | some (checked, after) =>
                match afterBlankLine? after.rest with
                | some rest =>
                    ({ d with emptyItem := true }.add
                      (.plain { source := [], task := some checked }), .nothing rest)
                | none => (d, .task checked after.skipAll)
            | none =>
                if after.rest.length < cursor.rest.length then openContainers d after
                else (d, .leaf after)
    | none =>
        match inner.rest with
        | '>' :: _ =>
            let after := ((inner.advance 1).skipUpTo 1).2
            if after.rest.length < cursor.rest.length then openContainers d.openQuote after
            else (d.openQuote, .leaf after)
        | _ => (d, .leaf cursor)
termination_by cursor.rest.length

/-! ### Documents -/

/-- Reads the leaf in front of a text, in containers already open. -/
def Draft.readLeaf (d : Draft) (cursor : Cursor) : Draft × List Char :=
  let (indent, inner) := cursor.skipUpTo 4
  let cs := inner.rest
  if indent ≥ 4 then d.readIndentedCode inner
  else
    match rawBlockEnd? false cs with
    | some ending => d.readRawBlock ending indent cs
    | none =>
        if isRule cs then (d.add .rule, (splitLine cs).2.2)
        else
          match numberSigns? cs with
          | some (level, rest) =>
              let (line, after) := splitRawLine rest
              let (source, id) := headingText line
              (d.add (.heading level id { source }), after)
          | none =>
              match fence? cs with
              | some (c, length, rest) => d.readFence indent c length rest
              | none =>
                  match definitionStart? d.containers cs with
                  | some (definition, rest) =>
                      ({ d with definitions := definition :: d.definitions }, rest)
                  | none => d.readText none cs

/-- Reads from the start of a line to the start of another. -/
def Draft.step (d : Draft) (cs : List Char) : Draft × List Char :=
  let (matched, cursor) := matchContainers d.containers cs
  match (d.closeTo matched).openContainers cursor with
  | (d, .nothing rest) => (d, rest)
  | (d, .task checked rest) => d.readText (some checked) rest
  | (d, .leaf cursor) =>
      match afterBlankLine? cursor.rest with
      | some rest => (d.blank, rest)
      | none => d.finishList.readLeaf cursor

/-- Reads a text to its end. -/
def Draft.read (d : Draft) (cs : List Char) : Draft :=
  if cs.isEmpty then d.finish
  else
    let (d', rest) := d.step cs
    if rest.length < cs.length then read d' rest else d'.finish
termination_by cs.length

end WikiPress.Markdown
