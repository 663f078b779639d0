import WikiPress.Markup.Event
import WikiPress.Text.Blank
import WikiPress.Xml.Escape

/-!
# WikiPress.Xhtml.Writer

Plain XHTML from an event stream.

Design points:

* The writer is a state machine: `step` takes an event to the next state and to the
  text that event adds, and the whole output is the concatenation of these pieces
  (`render`). The state holds only what later events depend on.
* An image is written when it ends, because its alternative text is the text of the
  events inside it. Until then openings and closings inside are only counted.
* A code block is written when it ends as well; its text is collected on the way.
* Void elements close themselves (`<br />`), since the output is to be XML.
-/

namespace WikiPress.Xhtml

open WikiPress.Markup
open WikiPress.Text (firstWord)
open WikiPress.Xml (escape)

/-- An image whose alternative text is being collected. -/
structure PendingImage where
  source : String
  title : String
  alt : String
  /-- How many images are open inside the alternative text. -/
  depth : Nat
  deriving DecidableEq, Repr

/-- A code block whose text is being collected. -/
structure PendingCode where
  language : Option String
  text : String
  deriving DecidableEq, Repr

/-- Where the writer is in a table. -/
structure TablePosition where
  alignments : List ColumnAlignment
  column : Nat
  inHead : Bool
  deriving DecidableEq, Repr

/-- What the writer has to remember between events. -/
structure State where
  table : TablePosition := ⟨[], 0, false⟩
  image : Option PendingImage := none
  code : Option PendingCode := none
  deriving DecidableEq, Repr

/-- The state before the first event. -/
def State.start : State := {}

/-- The style attribute of a cell under an alignment. -/
def alignmentStyle : ColumnAlignment → String
  | .unset => ""
  | .left => " style=\"text-align: left\""
  | .center => " style=\"text-align: center\""
  | .right => " style=\"text-align: right\""

/-- The style attribute of the cell at the current column. -/
def TablePosition.style (t : TablePosition) : String :=
  alignmentStyle (t.alignments[t.column]?.getD .unset)

/-- The element name of a cell. -/
def TablePosition.cellName (t : TablePosition) : String :=
  if t.inHead then "th" else "td"

/-- A title attribute, absent when the title is empty. -/
def titleAttribute (title : String) : String :=
  if title.isEmpty then "" else " title=\"" ++ escape title ++ "\""

/-- A finished image. -/
def PendingImage.write (i : PendingImage) : String :=
  "<img src=\"" ++ escape i.source ++ "\" alt=\"" ++ escape i.alt ++ "\"" ++
    titleAttribute i.title ++ " />"

/-- A finished code block. -/
def PendingCode.write (c : PendingCode) : String :=
  match c.language with
  | some language =>
      "<pre><code class=\"language-" ++ escape language ++ "\">" ++ escape c.text ++ "</code></pre>"
  | none => "<pre><code>" ++ escape c.text ++ "</code></pre>"

/-- The language a code block is marked with: the first word of its info string. -/
def codeLanguage (info : Option String) : Option String :=
  (info.map firstWord).filter (!·.isEmpty)

/-- The start tag of a list. -/
def listStart : Option Nat → String
  | none => "<ul>"
  | some 1 => "<ol>"
  | some n => "<ol start=\"" ++ toString n ++ "\">"

/-- The start tag of a heading. -/
def headingStart (level : HeadingLevel) : Option String → String
  | some id => "<h" ++ toString level.number ++ " id=\"" ++ escape id ++ "\">"
  | none => "<h" ++ toString level.number ++ ">"

/-- The start tag of a link; an email link names its scheme. -/
def linkStart (kind : LinkKind) (destination title : String) : String :=
  "<a href=\"" ++ (if kind = .email then "mailto:" else "") ++ escape destination ++ "\"" ++
    titleAttribute title ++ ">"

/-- An opening outside any image. -/
def openTag (s : State) : Tag → State × String
  | .paragraph => (s, "<p>")
  | .heading level id => (s, headingStart level id)
  | .blockQuote => (s, "<blockquote>")
  | .codeBlock info => ({ s with code := some ⟨codeLanguage info, ""⟩ }, "")
  | .htmlBlock => (s, "")
  | .list start => (s, listStart start)
  | .item => (s, "<li>")
  | .footnoteDefinition _ => (s, "")
  | .definitionList => (s, "<dl>")
  | .definitionTerm => (s, "<dt>")
  | .definitionDetails => (s, "<dd>")
  | .table alignments => ({ s with table := ⟨alignments, 0, false⟩ }, "<table>")
  | .tableHead => ({ s with table := ⟨s.table.alignments, 0, true⟩ }, "<thead><tr>")
  | .tableRow => ({ s with table := { s.table with column := 0 } }, "<tr>")
  | .tableCell => (s, "<" ++ s.table.cellName ++ s.table.style ++ ">")
  | .emphasis => (s, "<em>")
  | .strong => (s, "<strong>")
  | .strikethrough => (s, "<s>")
  | .superscript => (s, "<sup>")
  | .subscript => (s, "<sub>")
  | .link kind destination title => (s, linkStart kind destination title)
  | .image source title => ({ s with image := some ⟨source, title, "", 0⟩ }, "")
  | .metadata => (s, "")

/-- A closing outside any image. -/
def closeTag (s : State) : Closing → State × String
  | .paragraph => (s, "</p>")
  | .heading level => (s, "</h" ++ toString level.number ++ ">")
  | .blockQuote => (s, "</blockquote>")
  | .codeBlock =>
      match s.code with
      | some code => ({ s with code := none }, code.write)
      | none => (s, "")
  | .htmlBlock => (s, "")
  | .list numbered => (s, if numbered then "</ol>" else "</ul>")
  | .item => (s, "</li>")
  | .footnoteDefinition => (s, "")
  | .definitionList => (s, "</dl>")
  | .definitionTerm => (s, "</dt>")
  | .definitionDetails => (s, "</dd>")
  | .table => (s, "</tbody></table>")
  | .tableHead => ({ s with table := { s.table with inHead := false } }, "</tr></thead><tbody>")
  | .tableRow => (s, "</tr>")
  | .tableCell =>
      ({ s with table := { s.table with column := s.table.column + 1 } },
        "</" ++ s.table.cellName ++ ">")
  | .emphasis => (s, "</em>")
  | .strong => (s, "</strong>")
  | .strikethrough => (s, "</s>")
  | .superscript => (s, "</sup>")
  | .subscript => (s, "</sub>")
  | .link => (s, "</a>")
  | .image => (s, "")
  | .metadata => (s, "")

/-- An opening while an image collects its alternative text: only images count. -/
def PendingImage.enter (i : PendingImage) : Tag → PendingImage
  | .image .. => { i with depth := i.depth + 1 }
  | _ => i

/-- A closing while an image collects its alternative text: the image itself ends with
the closing that no inner image accounts for. -/
def PendingImage.leave (s : State) (i : PendingImage) : Closing → State × String
  | .image =>
      match i.depth with
      | 0 => ({ s with image := none }, i.write)
      | n + 1 => ({ s with image := some { i with depth := n } }, "")
  | _ => (s, "")

/-- One event: the next state and the text the event adds to the output. -/
def step (hardLineBreak : Bool) (s : State) : Event → State × String
  | .opening tag =>
      match s.image with
      | some i => ({ s with image := some (i.enter tag) }, "")
      | none => openTag s tag
  | .closing tag =>
      match s.image with
      | some i => i.leave s tag
      | none => closeTag s tag
  | .text t =>
      match s.code, s.image with
      | some c, _ => ({ s with code := some { c with text := c.text ++ t } }, "")
      | none, some i => ({ s with image := some { i with alt := i.alt ++ t } }, "")
      | none, none => (s, escape t)
  | .code t =>
      match s.image with
      | some i => ({ s with image := some { i with alt := i.alt ++ t } }, "")
      | none => (s, "<code>" ++ escape t ++ "</code>")
  | .html t => (s, t)
  | .inlineHtml t => (s, t)
  | .softBreak =>
      match s.image with
      | some i => ({ s with image := some { i with alt := i.alt ++ " " } }, "")
      | none => (s, if hardLineBreak then "<br />" else "\n")
  | .hardBreak => (s, "<br />")
  | .rule => (s, "<hr />")
  | .taskMarker checked => (s, if checked then "[x] " else "[ ] ")
  | .math .. => (s, "")
  | .footnoteReference _ => (s, "")

/-- The text each event adds, and the state after the last. -/
def run (hardLineBreak : Bool) : State → List Event → State × List String
  | s, [] => (s, [])
  | s, e :: es =>
      let (s', piece) := step hardLineBreak s e
      let (t, pieces) := run hardLineBreak s' es
      (t, piece :: pieces)

/-- The text each event of a stream adds. -/
def pieces (hardLineBreak : Bool) (es : List Event) : List String :=
  (run hardLineBreak .start es).2

/-- The XHTML of an event stream. -/
def render (hardLineBreak : Bool) (es : List Event) : String :=
  String.join (pieces hardLineBreak es)

@[simp] theorem run_nil (hardLineBreak : Bool) (s : State) : run hardLineBreak s [] = (s, []) := rfl

theorem run_cons (hardLineBreak : Bool) (s : State) (e : Event) (es : List Event) :
    run hardLineBreak s (e :: es) =
      ((run hardLineBreak (step hardLineBreak s e).1 es).1,
        (step hardLineBreak s e).2 :: (run hardLineBreak (step hardLineBreak s e).1 es).2) := rfl

theorem run_append (hardLineBreak : Bool) (s : State) (as bs : List Event) :
    run hardLineBreak s (as ++ bs) =
      ((run hardLineBreak (run hardLineBreak s as).1 bs).1,
        (run hardLineBreak s as).2 ++ (run hardLineBreak (run hardLineBreak s as).1 bs).2) := by
  induction as generalizing s with
  | nil => rfl
  | cons e es ih => simp [run_cons, ih]

end WikiPress.Xhtml
