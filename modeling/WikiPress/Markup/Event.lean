/-!
# WikiPress.Markup.Event

The stream of markup events a document is written from: containers open and
close around leaves, in document order.

Design points:

* `Tag` carries what an opening needs, `Closing` what a closing needs; a list and
  a heading repeat the part of their tag that shows in the end tag.
* A heading level is a number from 1 to 6 by construction.
* `Tag.closing` is the one closing that matches a tag, so a stream is balanced
  when its openings and closings match under it (`Balanced`).
-/

namespace WikiPress.Markup

/-- A heading level. -/
structure HeadingLevel where
  number : Nat
  one_le : 1 ≤ number := by decide
  le_six : number ≤ 6 := by decide
  deriving DecidableEq, Repr

/-- The outermost heading. -/
def HeadingLevel.one : HeadingLevel := { number := 1 }

/-- The heading below the outermost. -/
def HeadingLevel.two : HeadingLevel := { number := 2 }

instance : Inhabited HeadingLevel := ⟨.one⟩

/-- The heading level of a number from 1 to 6. -/
def HeadingLevel.ofNat? (n : Nat) : Option HeadingLevel :=
  if h : 1 ≤ n ∧ n ≤ 6 then some ⟨n, h.1, h.2⟩ else none

/-- How the cells of a table column are aligned. -/
inductive ColumnAlignment
  | unset
  | left
  | center
  | right
  deriving DecidableEq, Repr

/-- How a link was written. -/
inductive LinkKind
  | inline
  | reference
  | collapsed
  | shortcut
  | autolink
  | email
  deriving DecidableEq, Repr

/-- The opening of a container. -/
inductive Tag
  | paragraph
  | heading (level : HeadingLevel) (id : Option String)
  | blockQuote
  /-- A code block: `none` when indented, the info string when fenced. -/
  | codeBlock (info : Option String)
  | htmlBlock
  /-- A list: `none` when bulleted, the first number when numbered. -/
  | list (start : Option Nat)
  | item
  | footnoteDefinition (label : String)
  | definitionList
  | definitionTerm
  | definitionDetails
  | table (alignments : List ColumnAlignment)
  | tableHead
  | tableRow
  | tableCell
  | emphasis
  | strong
  | strikethrough
  | superscript
  | subscript
  | link (kind : LinkKind) (destination title : String)
  | image (destination title : String)
  | metadata
  deriving DecidableEq, Repr

/-- The closing of a container. -/
inductive Closing
  | paragraph
  | heading (level : HeadingLevel)
  | blockQuote
  | codeBlock
  | htmlBlock
  | list (numbered : Bool)
  | item
  | footnoteDefinition
  | definitionList
  | definitionTerm
  | definitionDetails
  | table
  | tableHead
  | tableRow
  | tableCell
  | emphasis
  | strong
  | strikethrough
  | superscript
  | subscript
  | link
  | image
  | metadata
  deriving DecidableEq, Repr

/-- The closing that matches a tag. -/
def Tag.closing : Tag → Closing
  | .paragraph => .paragraph
  | .heading level _ => .heading level
  | .blockQuote => .blockQuote
  | .codeBlock _ => .codeBlock
  | .htmlBlock => .htmlBlock
  | .list start => .list start.isSome
  | .item => .item
  | .footnoteDefinition _ => .footnoteDefinition
  | .definitionList => .definitionList
  | .definitionTerm => .definitionTerm
  | .definitionDetails => .definitionDetails
  | .table _ => .table
  | .tableHead => .tableHead
  | .tableRow => .tableRow
  | .tableCell => .tableCell
  | .emphasis => .emphasis
  | .strong => .strong
  | .strikethrough => .strikethrough
  | .superscript => .superscript
  | .subscript => .subscript
  | .link .. => .link
  | .image .. => .image
  | .metadata => .metadata

/-- One step of a document. -/
inductive Event
  | opening (tag : Tag)
  | closing (tag : Closing)
  | text (s : String)
  /-- The content of a code span. -/
  | code (s : String)
  /-- Raw markup standing as a block. -/
  | html (s : String)
  /-- Raw markup standing in running text. -/
  | inlineHtml (s : String)
  | math (display : Bool) (s : String)
  | footnoteReference (label : String)
  | softBreak
  | hardBreak
  | rule
  | taskMarker (checked : Bool)
  deriving DecidableEq, Repr

/-- Whether a stream closes exactly the containers of a stack, innermost first, and
every container it opens itself. -/
def balancedFrom : List Closing → List Event → Bool
  | [], [] => true
  | _ :: _, [] => false
  | stack, .opening tag :: es => balancedFrom (tag.closing :: stack) es
  | top :: stack, .closing tag :: es => top = tag && balancedFrom stack es
  | [], .closing _ :: _ => false
  | stack, _ :: es => balancedFrom stack es

/-- Openings and closings match in last-in first-out order. -/
def Balanced (es : List Event) : Prop := balancedFrom [] es = true

instance (es : List Event) : Decidable (Balanced es) := by
  unfold Balanced; infer_instance

end WikiPress.Markup
