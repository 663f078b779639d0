import WikiPress.Markdown.LinkParts
import WikiPress.Markup.Document

/-!
# WikiPress.Markdown.Container

The containers that are open while a document is read: block quotes, lists and their
items.

Design points:

* The open containers are a stack, innermost first, and each holds the finished blocks
  inside it, latest first. A list and its open item are one entry.
* A line belongs to the containers whose margins it has in front. A list never ends by
  its margin; its item does when the line is not indented far enough.
* A list is tight until a blank line separates two of its blocks or items. What the
  paragraphs of a tight list become is settled when the list ends.
-/

namespace WikiPress.Markdown

open WikiPress.Markup (Block)

/-- The text of a leaf before its inlines are read. -/
structure LeafText where
  source : Source
  inTable : Bool := false
  /-- The task marker in front of the text. -/
  task : Option Bool := none
  deriving Repr

/-- A block before its inlines are read. -/
abbrev RawBlock := Block LeafText

/-- An open list item. -/
structure OpenItem where
  /-- The columns of white space by which a line belongs to the item. -/
  indent : Nat
  blocks : List RawBlock := []
  deriving Repr

/-- An open container. -/
inductive Container
  | quote (blocks : List RawBlock)
  | list (marker : Char) (start : Option Nat) (tight : Bool) (items : List (List RawBlock))
      (item : Option OpenItem)
  deriving Repr

/-- What has been read of a document. -/
structure Draft where
  /-- The finished blocks outside all open containers, latest first. -/
  blocks : List RawBlock := []
  /-- The open containers, innermost first. -/
  containers : List Container := []
  /-- Whether the last line was blank, as far as it can make a list loose. -/
  lastBlank : Bool := false
  /-- Whether the latest item began with an empty line. -/
  emptyItem : Bool := false
  /-- The link definitions, latest first. -/
  definitions : List Definition := []
  deriving Repr

/-- The position after the margin of a container, if a line has that margin. -/
def Container.margin? (c : Container) (cursor : Cursor) : Option Cursor :=
  match c with
  | .quote _ =>
      let cursor := (cursor.skipUpTo 3).2
      match cursor.rest with
      | '>' :: _ => some ((cursor.advance 1).skipUpTo 1).2
      | _ => none
  | .list _ _ _ _ (some item) =>
      let (missing, after) := cursor.skip item.indent
      if missing = 0 || atLineEnd after.rest then some after else none
  | .list _ _ _ _ none => some cursor

/-- How many containers, outermost first, a line belongs to, and the position after their
margins. -/
def matchMargins : List Container → Cursor → Nat × Cursor
  | [], cursor => (0, cursor)
  | c :: cs, cursor =>
      match c.margin? cursor with
      | some after =>
          let (n, cursor) := matchMargins cs after
          (n + 1, cursor)
      | none => (0, cursor)

/-- How many of a stack of containers a line belongs to, and the position after their
margins. -/
def matchContainers (containers : List Container) (cs : List Char) : Nat × Cursor :=
  matchMargins containers.reverse (.start cs)

/-- A paragraph as a tight list holds it. -/
def tighten : RawBlock → RawBlock
  | .paragraph body => .plain body
  | b => b

/-- A finished list. -/
def listBlock (start : Option Nat) (tight : Bool) (items : List (List RawBlock)) : RawBlock :=
  .list start (if tight then items.map (·.map tighten) else items)

namespace Draft

/-- Adds a finished block to the innermost container. -/
def add (d : Draft) (b : RawBlock) : Draft :=
  match d.containers with
  | [] => { d with blocks := b :: d.blocks }
  | .quote blocks :: outer => { d with containers := .quote (b :: blocks) :: outer }
  | .list marker start tight items (some item) :: outer =>
      { d with containers :=
          .list marker start tight items (some { item with blocks := b :: item.blocks }) :: outer }
  | .list marker start tight items none :: outer =>
      { d with containers := .list marker start tight ([b] :: items) none :: outer }

/-- Ends the open item of the innermost container. -/
def closeItem (d : Draft) : Draft :=
  match d.containers with
  | .list marker start tight items (some item) :: outer =>
      { d with containers :=
          .list marker start tight (item.blocks.reverse :: items) none :: outer }
  | _ => d

/-- Ends the innermost container. -/
def close (d : Draft) : Draft :=
  let d := d.closeItem
  match d.containers with
  | [] => d
  | .quote blocks :: outer => { d with containers := outer }.add (.quote blocks.reverse)
  | .list _ start tight items _ :: outer =>
      { d with containers := outer, emptyItem := d.emptyItem && !tight }.add
        (listBlock start tight items.reverse)

/-- Ends the innermost containers, so many of them. -/
def closeMany : Nat → Draft → Draft
  | 0, d => d
  | n + 1, d => closeMany n d.close

/-- Ends the containers a line does not belong to. Of the outermost of them a list stays
open and only its item ends. -/
def closeTo (d : Draft) (matched : Nat) : Draft :=
  let d := closeMany (d.containers.length - (matched + 1)) d
  if d.containers.length ≤ matched then d
  else
    match d.containers with
    | .list .. :: _ => d.closeItem
    | _ => d.close

/-- Ends the latest item if it began empty and a blank line followed. -/
def finishEmptyItem (d : Draft) : Draft :=
  let d' := if d.emptyItem && d.lastBlank then d.closeItem else d
  { d' with emptyItem := false }

/-- Makes the list of the innermost container loose. -/
def loosen (d : Draft) : Draft :=
  match d.containers with
  | .list marker start _ items item :: outer =>
      { d with containers := .list marker start false items item :: outer }
  | _ => d

/-- Prepares for a block that is no list item: a list without open item ends, and a blank
line in front of a block inside an item makes the item's list loose. -/
def finishList (d : Draft) : Draft :=
  let d := d.finishEmptyItem
  let d := match d.containers with
    | .list _ _ _ _ none :: _ => d.close
    | _ => d
  { (if d.lastBlank then d.loosen else d) with lastBlank := false }

/-- Prepares for an item: the list it continues, or a new one. -/
def continueList (d : Draft) (marker : Char) (start : Option Nat) : Draft :=
  let d := d.finishEmptyItem
  let fresh (d : Draft) : Draft :=
    { d with containers := .list marker start true [] none :: d.containers, lastBlank := false }
  match d.containers with
  | .list existing _ _ _ none :: _ =>
      if existing = marker then { (if d.lastBlank then d.loosen else d) with lastBlank := false }
      else fresh d.finishList
  | [] => fresh d
  | _ => fresh d.finishList

/-- Opens an item in the innermost list. -/
def openItem (d : Draft) (indent : Nat) : Draft :=
  match d.containers with
  | .list marker start tight items _ :: outer =>
      { d with containers := .list marker start tight items (some { indent }) :: outer }
  | _ => d

/-- Opens a block quote. -/
def openQuote (d : Draft) : Draft :=
  let d := d.finishList
  { d with containers := .quote [] :: d.containers }

/-- Takes note of a blank line. It ends an item that began with one as far as its margin
goes: later lines belong to it only if they need no margin. -/
def blank (d : Draft) : Draft :=
  match d.containers with
  | [] => d
  | .quote _ :: _ => d
  | .list marker start tight items (some item) :: outer =>
      let item := if d.emptyItem then { item with indent := 0 } else item
      { d with containers := .list marker start tight items (some item) :: outer,
               lastBlank := true }
  | .list .. :: _ => { d with lastBlank := true }

/-- Ends all containers. -/
def finish (d : Draft) : Draft := closeMany d.containers.length d

end Draft

end WikiPress.Markdown
