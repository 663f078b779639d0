import WikiPress.Markdown.Block
import WikiPress.Markdown.Inline

/-!
# WikiPress.Markdown.Parse

Markdown documents: CommonMark with tables, strikethrough, task lists and heading
attributes.

Design points:

* The blocks are read first and with them all link definitions, then the inlines of every
  leaf, since a label may be defined after it is used. The first definition of a label
  counts.
-/

namespace WikiPress.Markdown

open WikiPress.Markup

/-- The inlines of a leaf, its task marker in front. -/
def LeafText.inlines (definitions : List Definition) (t : LeafText) : List Inline :=
  (t.task.map Inline.taskMarker).toList ++
    Markdown.inlines definitions t.inTable t.source

/-- The document a text stands for. -/
def parse (text : String) : Document :=
  let d := Draft.read {} text.toList
  mapBlocks (LeafText.inlines d.definitions.reverse) d.blocks.reverse

/-- The events of the document a text stands for. -/
def events (text : String) : List Event :=
  (parse text).events

end WikiPress.Markdown
