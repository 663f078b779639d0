import WikiPress.Markup.Event

/-!
# WikiPress.Markup.Document

A document as a tree of blocks and inlines, and the event stream it stands for.

Design points:

* `Block` is generic in what a leaf holds: the block structure is read first, with
  leaves still as written, and `Block.map` then reads every leaf.
* A list keeps its items as lists of blocks. A paragraph of a tight list is
  `Block.plain`, which has content and no tags of its own.
* The events of a tree are balanced by construction: every opening is emitted
  together with its closing around the events of the children.
-/

namespace WikiPress.Markup

/-- Running text. -/
inductive Inline
  | text (s : String)
  | code (s : String)
  /-- Raw markup. -/
  | html (s : String)
  | softBreak
  | hardBreak
  | taskMarker (checked : Bool)
  | emphasis (body : List Inline)
  | strong (body : List Inline)
  | strikethrough (body : List Inline)
  | link (kind : LinkKind) (destination title : String) (body : List Inline)
  | image (destination title : String) (body : List Inline)
  deriving Repr

/-- A line of a raw block: the indentation that stands in front, and the markup. -/
structure RawLine where
  indent : String
  markup : String
  deriving Repr

/-- A block whose leaves hold `α`. -/
inductive Block (α : Type)
  | paragraph (body : α)
  /-- A paragraph of a tight list. -/
  | plain (body : α)
  | heading (level : HeadingLevel) (id : Option String) (body : α)
  | quote (body : List (Block α))
  | code (info : Option String) (lines : List String)
  | html (lines : List RawLine)
  | list (start : Option Nat) (items : List (List (Block α)))
  | table (alignments : List ColumnAlignment) (head : List α) (rows : List (List α))
  | rule
  deriving Repr

mutual

/-- Rewrites what the leaves hold. -/
def Block.map {α β : Type} (f : α → β) : Block α → Block β
  | .paragraph body => .paragraph (f body)
  | .plain body => .plain (f body)
  | .heading level id body => .heading level id (f body)
  | .quote body => .quote (mapBlocks f body)
  | .code info lines => .code info lines
  | .html lines => .html lines
  | .list start items => .list start (mapItems f items)
  | .table alignments head rows => .table alignments (head.map f) (rows.map (·.map f))
  | .rule => .rule

/-- Rewrites what the leaves of a sequence of blocks hold. -/
def mapBlocks {α β : Type} (f : α → β) : List (Block α) → List (Block β)
  | [] => []
  | b :: bs => b.map f :: mapBlocks f bs

/-- Rewrites what the leaves of a list's items hold. -/
def mapItems {α β : Type} (f : α → β) : List (List (Block α)) → List (List (Block β))
  | [] => []
  | i :: is => mapBlocks f i :: mapItems f is

end

/-- Puts a container's opening and closing around the events of its content. -/
def enclose (tag : Tag) (es : List Event) : List Event :=
  .opening tag :: es ++ [.closing tag.closing]

mutual

/-- The events of one inline. -/
def Inline.events : Inline → List Event
  | .text s => [.text s]
  | .code s => [.code s]
  | .html s => [.inlineHtml s]
  | .softBreak => [.softBreak]
  | .hardBreak => [.hardBreak]
  | .taskMarker checked => [.taskMarker checked]
  | .emphasis body => enclose .emphasis (inlineEvents body)
  | .strong body => enclose .strong (inlineEvents body)
  | .strikethrough body => enclose .strikethrough (inlineEvents body)
  | .link kind destination title body =>
      enclose (.link kind destination title) (inlineEvents body)
  | .image destination title body => enclose (.image destination title) (inlineEvents body)

/-- The events of running text. -/
def inlineEvents : List Inline → List Event
  | [] => []
  | i :: is => i.events ++ inlineEvents is

end

/-- The events of a raw line: its indentation is text. -/
def RawLine.events (l : RawLine) : List Event :=
  (if l.indent.isEmpty then [] else [.text l.indent]) ++ [.html l.markup]

/-- The events of the cells of a table row. -/
def cellEvents (cells : List (List Inline)) : List Event :=
  cells.flatMap fun cell => enclose .tableCell (inlineEvents cell)

mutual

/-- The events of one block. -/
def Block.events : Block (List Inline) → List Event
  | .paragraph body => enclose .paragraph (inlineEvents body)
  | .plain body => inlineEvents body
  | .heading level id body => enclose (.heading level id) (inlineEvents body)
  | .quote body => enclose .blockQuote (blockEvents body)
  | .code info lines => enclose (.codeBlock info) (lines.map .text)
  | .html lines => enclose .htmlBlock (lines.flatMap RawLine.events)
  | .list start items => enclose (.list start) (itemEvents items)
  | .table alignments head rows =>
      enclose (.table alignments)
        (enclose .tableHead (cellEvents head) ++
          rows.flatMap fun row => enclose .tableRow (cellEvents row))
  | .rule => [.rule]

/-- The events of a sequence of blocks. -/
def blockEvents : List (Block (List Inline)) → List Event
  | [] => []
  | b :: bs => b.events ++ blockEvents bs

/-- The events of a list's items. -/
def itemEvents : List (List (Block (List Inline))) → List Event
  | [] => []
  | i :: is => enclose .item (blockEvents i) ++ itemEvents is

end

/-- A document. -/
abbrev Document := List (Block (List Inline))

/-- The events of a document. -/
def Document.events (d : Document) : List Event := blockEvents d

end WikiPress.Markup
