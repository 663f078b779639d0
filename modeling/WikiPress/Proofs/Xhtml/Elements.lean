import WikiPress.Proofs.Markup.Shape
import WikiPress.Proofs.Xml.Reader
import WikiPress.Xhtml.Writer

/-!
# WikiPress.Proofs.Xhtml.Elements

The elements the XHTML writer has open for a container, and what its start and end tags do
to a reader.

Design points:

* A table's element is open as a table alone until its head is closed, and as table and
  body from there on. Which of the two it is follows from the content of the table.
* Start and end tags are compared through the elements: an opening puts the elements of
  its container on the reader's stack (`reads_openTag`), a closing takes the same ones off
  (`reads_closeTag`).
* A cell is the one container whose name the writer looks up in its state, so the two
  lemmas ask that the state tells head and body apart as the containers do.
-/

namespace WikiPress.Xhtml

open WikiPress.Markup
open WikiPress.Xml (Reader Reads escape)

/-- The elements that are open for a container with some content, innermost first. -/
def elementsOf (inner : Content) (o : Opened) : List (List Char) :=
  match o.tag with
  | .paragraph => ["p".toList]
  | .heading level _ => [("h" ++ toString level.number).toList]
  | .blockQuote => ["blockquote".toList]
  | .list start => [if start.isSome then "ol".toList else "ul".toList]
  | .item => ["li".toList]
  | .definitionList => ["dl".toList]
  | .definitionTerm => ["dt".toList]
  | .definitionDetails => ["dd".toList]
  | .table _ => if inner = .rows then ["tbody".toList, "table".toList] else ["table".toList]
  | .tableHead => ["tr".toList, "thead".toList]
  | .tableRow => ["tr".toList]
  | .tableCell => [if o.outer = .headCells then "th".toList else "td".toList]
  | .emphasis => ["em".toList]
  | .strong => ["strong".toList]
  | .strikethrough => ["s".toList]
  | .superscript => ["sup".toList]
  | .subscript => ["sub".toList]
  | .link .. => ["a".toList]
  | .codeBlock _ | .htmlBlock | .footnoteDefinition _ | .image .. | .metadata => []

variable {elements : List (List Char)}

/-! ## Start tags with attributes -/

theorem reads_titleAttribute (elements : List (List Char)) (element : List Char)
    {given : List (List Char)} (title : String) (h : "title".toList ∉ given) :
    ∃ given', Reads ⟨.valueEnd element given, elements⟩ (titleAttribute title)
      ⟨.valueEnd element given', elements⟩ := by
  unfold titleAttribute
  by_cases hempty : title.isEmpty
  · rw [if_pos hempty]
    exact ⟨given, Reads.empty _⟩
  · rw [if_neg hempty]
    refine ⟨"title".toList :: given, ?_⟩
    have hname : Reads ⟨.valueEnd element given, elements⟩ " title=\""
        ⟨.value element ("title".toList :: given), elements⟩ := by
      have hnew : ['t', 'i', 't', 'l', 'e'] ∉ given := h
      simp [Reads, Reader.read_cons, Reader.step, Xml.isNameStart, Xml.isNameChar, hnew]
    have hquote : Reads ⟨.value element ("title".toList :: given), elements⟩ "\""
        ⟨.valueEnd element ("title".toList :: given), elements⟩ := rfl
    exact (hname.append (Reads.escape_value _ _ _ _)).append hquote

theorem reads_listStart (start : Option Nat) :
    Reads ⟨.text, elements⟩ (listStart start)
      ⟨.text, (if start.isSome then "ol".toList else "ul".toList) :: elements⟩ := by
  unfold listStart
  split
  · exact Reads.under (t := ["ul".toList]) (by decide) elements
  · exact Reads.under (t := ["ol".toList]) (by decide) elements
  · next n _ =>
      have hfront : Reads ⟨.text, elements⟩ "<ol start=\""
          ⟨.value "ol".toList ["start".toList], elements⟩ :=
        Reads.under (t := []) (by decide) elements
      have hback : Reads ⟨.value "ol".toList ["start".toList], elements⟩ "\">"
          ⟨.text, "ol".toList :: elements⟩ := rfl
      exact (hfront.append (Reads.nat_value _ _ _ n)).append hback

/-- The tags of the six headings. -/
theorem reads_heading_tags : ∀ n < 7, 1 ≤ n →
    Reads ⟨.text, []⟩ ("<h" ++ toString n ++ ">") ⟨.text, [("h" ++ toString n).toList]⟩ ∧
      Reads ⟨.text, []⟩ ("<h" ++ toString n ++ " id=\"")
        ⟨.value ("h" ++ toString n).toList ["id".toList], []⟩ ∧
      Reads ⟨.text, [("h" ++ toString n).toList]⟩ ("</h" ++ toString n ++ ">") ⟨.text, []⟩ := by
  decide

theorem reads_headingStart (level : HeadingLevel) (id : Option String) :
    Reads ⟨.text, elements⟩ (headingStart level id)
      ⟨.text, ("h" ++ toString level.number).toList :: elements⟩ := by
  obtain ⟨hplain, hfront, -⟩ :=
    reads_heading_tags level.number (Nat.lt_succ_of_le level.le_six) level.one_le
  cases id with
  | none => exact hplain.under elements
  | some id =>
      have hback : Reads
          ⟨.value ("h" ++ toString level.number).toList ["id".toList], elements⟩ "\">"
          ⟨.text, ("h" ++ toString level.number).toList :: elements⟩ := rfl
      exact ((hfront.under elements).append (Reads.escape_value _ _ _ _)).append hback

theorem reads_linkStart (kind : LinkKind) (destination title : String) :
    Reads ⟨.text, elements⟩ (linkStart kind destination title)
      ⟨.text, "a".toList :: elements⟩ := by
  have hfront : Reads ⟨.text, elements⟩ "<a href=\""
      ⟨.value "a".toList ["href".toList], elements⟩ :=
    Reads.under (t := []) (by decide) elements
  have hscheme : Reads ⟨.value "a".toList ["href".toList], elements⟩
      (if kind = .email then "mailto:" else "") ⟨.value "a".toList ["href".toList], elements⟩ := by
    split
    · rfl
    · rfl
  have hquote : Reads ⟨.value "a".toList ["href".toList], elements⟩ "\""
      ⟨.valueEnd "a".toList ["href".toList], elements⟩ := rfl
  obtain ⟨given, htitle⟩ := reads_titleAttribute elements "a".toList title
    (show "title".toList ∉ ["href".toList] by decide)
  have hback : Reads ⟨.valueEnd "a".toList given, elements⟩ ">" ⟨.text, "a".toList :: elements⟩ :=
    rfl
  exact ((((hfront.append hscheme).append (Reads.escape_value _ _ _ _)).append hquote).append
    htitle).append hback

/-! ## Containers written when they end -/

theorem reads_image (i : PendingImage) :
    Reads ⟨.text, elements⟩ i.write ⟨.text, elements⟩ := by
  have hfront : Reads ⟨.text, elements⟩ "<img src=\""
      ⟨.value "img".toList ["src".toList], elements⟩ :=
    Reads.under (t := []) (by decide) elements
  have halt : Reads ⟨.value "img".toList ["src".toList], elements⟩ "\" alt=\""
      ⟨.value "img".toList ["alt".toList, "src".toList], elements⟩ :=
    Reads.under (t := []) (by decide) elements
  have hquote : Reads ⟨.value "img".toList ["alt".toList, "src".toList], elements⟩ "\""
      ⟨.valueEnd "img".toList ["alt".toList, "src".toList], elements⟩ := rfl
  obtain ⟨given, htitle⟩ := reads_titleAttribute elements "img".toList i.title
    (show "title".toList ∉ ["alt".toList, "src".toList] by decide)
  have hback : Reads ⟨.valueEnd "img".toList given, elements⟩ " />" ⟨.text, elements⟩ := rfl
  exact (((((hfront.append (Reads.escape_value _ _ _ _)).append halt).append
    (Reads.escape_value _ _ _ _)).append hquote).append htitle).append hback

theorem reads_code (c : PendingCode) :
    Reads ⟨.text, elements⟩ c.write ⟨.text, elements⟩ := by
  have hback : Reads ⟨.text, "code".toList :: "pre".toList :: elements⟩ "</code></pre>"
      ⟨.text, elements⟩ :=
    Reads.closing (t := ["code".toList, "pre".toList]) (by decide) elements
  unfold PendingCode.write
  split
  · next language _ =>
      have hfront : Reads ⟨.text, elements⟩ "<pre><code class=\"language-"
          ⟨.value "code".toList ["class".toList], "pre".toList :: elements⟩ :=
        Reads.under (t := ["pre".toList]) (by decide) elements
      have hopen : Reads ⟨.value "code".toList ["class".toList], "pre".toList :: elements⟩ "\">"
          ⟨.text, "code".toList :: "pre".toList :: elements⟩ := rfl
      exact (((hfront.append (Reads.escape_value _ _ _ language)).append hopen).append
        (Reads.escape_text _ c.text)).append hback
  · have hfront : Reads ⟨.text, elements⟩ "<pre><code>"
        ⟨.text, "code".toList :: "pre".toList :: elements⟩ :=
      Reads.under (t := ["code".toList, "pre".toList]) (by decide) elements
    exact (hfront.append (Reads.escape_text _ c.text)).append hback

/-! ## Openings and closings -/

/-- The start tag of a cell. -/
theorem reads_cellStart (inHead : Bool) (alignment : ColumnAlignment) :
    Reads ⟨.text, []⟩
      ("<" ++ (if inHead then "th" else "td") ++ alignmentStyle alignment ++ ">")
      ⟨.text, [if inHead then "th".toList else "td".toList]⟩ := by
  cases inHead <;> cases alignment <;> decide

theorem reads_cellEnd (inHead : Bool) :
    Reads ⟨.text, [if inHead then "th".toList else "td".toList]⟩
      ("</" ++ (if inHead then "th" else "td") ++ ">") ⟨.text, []⟩ := by
  cases inHead <;> decide

/-- An opening puts the elements of its container on the stack. -/
theorem reads_openTag {s : State} {tag : Tag} {outer inner : Content}
    (hin : outer.inside tag = some inner)
    (hcell : tag = .tableCell → s.table.inHead = decide (outer = .headCells)) :
    Reads ⟨.text, elements⟩ (openTag s tag).2
      ⟨.text, elementsOf inner ⟨tag, outer⟩ ++ elements⟩ := by
  cases tag with
  | heading level id => exact reads_headingStart level id
  | list start => exact reads_listStart start
  | link kind destination title => exact reads_linkStart kind destination title
  | table alignments =>
      obtain ⟨-, rfl⟩ := Content.inside_block hin rfl (by simp)
      show Reads _ "<table>" ⟨.text, ["table".toList] ++ elements⟩
      exact Reads.under (by decide) elements
  | tableCell =>
      have hname : (if outer = .headCells then "th".toList else "td".toList) =
          if s.table.inHead then "th".toList else "td".toList := by
        rw [hcell rfl]
        by_cases h : outer = .headCells <;> simp [h]
      simp only [elementsOf, hname]
      exact (reads_cellStart s.table.inHead _).under elements
  | codeBlock info => exact Reads.empty _
  | htmlBlock => exact Reads.empty _
  | footnoteDefinition label => exact Reads.empty _
  | image destination title => exact Reads.empty _
  | metadata => exact Reads.empty _
  | _ =>
      simp only [openTag, elementsOf]
      exact Reads.under (by decide) elements

/-- The elements that stay open behind a container: the body of a table behind its head. -/
def elementsBehind : Tag → List (List Char)
  | .tableHead => ["tbody".toList]
  | _ => []

/-- A closing takes the elements of its container off the stack. -/
theorem reads_closeTag {s : State} {o : Opened} {inner : Content}
    (hin : ∃ i, o.outer.inside o.tag = some i ∧ (inner = i ∨ inner = i.after))
    (hcomplete : inner.complete = true)
    (hcell : o.tag = .tableCell → s.table.inHead = decide (o.outer = .headCells)) :
    Reads ⟨.text, elementsOf inner o ++ elements⟩ (closeTag s o.tag.closing).2
      ⟨.text, elementsBehind o.tag ++ elements⟩ := by
  obtain ⟨tag, outer⟩ := o
  cases tag with
  | heading level id =>
      obtain ⟨-, -, hclose⟩ :=
        reads_heading_tags level.number (Nat.lt_succ_of_le level.le_six) level.one_le
      exact hclose.closing elements
  | list start =>
      cases start with
      | none =>
          simp only [Tag.closing, closeTag, elementsOf, elementsBehind]
          exact Reads.closing (by decide) elements
      | some n =>
          simp only [Tag.closing, closeTag, elementsOf, elementsBehind, Option.isSome_some, if_true]
          exact Reads.closing (by decide) elements
  | table alignments =>
      have hinner : inner = .rows := by
        obtain ⟨i, hi, hinner⟩ := hin
        obtain ⟨-, rfl⟩ := Content.inside_block hi rfl (by simp)
        rcases hinner with rfl | rfl
        · cases hcomplete
        · rfl
      subst hinner
      simp only [Tag.closing, closeTag, elementsOf, elementsBehind]
      exact Reads.closing (by decide) elements
  | tableHead =>
      simp only [Tag.closing, closeTag, elementsOf, elementsBehind]
      exact Reads.around (by decide) elements
  | tableCell =>
      have hname : (if outer = .headCells then "th".toList else "td".toList) =
          if s.table.inHead then "th".toList else "td".toList := by
        rw [hcell rfl]
        by_cases h : outer = .headCells <;> simp [h]
      simp only [elementsOf, hname]
      exact (reads_cellEnd s.table.inHead).closing elements
  | codeBlock info =>
      simp only [Tag.closing, closeTag]
      split
      · exact reads_code _
      · exact Reads.empty _
  | htmlBlock => exact Reads.empty _
  | footnoteDefinition label => exact Reads.empty _
  | image destination title => exact Reads.empty _
  | metadata => exact Reads.empty _
  | _ =>
      simp only [Tag.closing, closeTag, elementsOf, elementsBehind]
      exact Reads.closing (by decide) elements

/-- The leaves without text of their own. -/
theorem reads_breaks : ∀ s ∈ ["<br />", "\n", "<hr />", "[x] ", "[ ] "],
    Reads ⟨.text, []⟩ s ⟨.text, []⟩ := by
  decide

/-- A leaf leaves the open elements as they are, in whatever state it is met. -/
theorem reads_leaf (hardLineBreak : Bool) (s : State) {e : Event} (he : e.isLeaf = true)
    (hraw : e.isRaw = false) :
    Reads ⟨.text, elements⟩ (step hardLineBreak s e).2 ⟨.text, elements⟩ := by
  cases e with
  | opening tag => cases he
  | closing c => cases he
  | html t => cases hraw
  | inlineHtml t => cases hraw
  | text t =>
      simp only [step]
      split
      · exact Reads.empty _
      · exact Reads.empty _
      · exact Reads.escape_text elements t
  | code t =>
      simp only [step]
      split
      · exact Reads.empty _
      · have hfront : Reads ⟨.text, elements⟩ "<code>" ⟨.text, "code".toList :: elements⟩ :=
          Reads.under (t := ["code".toList]) (by decide) elements
        have hback : Reads ⟨.text, "code".toList :: elements⟩ "</code>" ⟨.text, elements⟩ :=
          Reads.closing (t := ["code".toList]) (by decide) elements
        exact (hfront.append (Reads.escape_text _ t)).append hback
  | softBreak =>
      simp only [step]
      split
      · exact Reads.empty _
      · cases hardLineBreak with
        | true => exact (reads_breaks "<br />" (by simp)).under elements
        | false => exact (reads_breaks "\n" (by simp)).under elements
  | hardBreak => exact (reads_breaks "<br />" (by simp)).under elements
  | rule => exact (reads_breaks "<hr />" (by simp)).under elements
  | taskMarker checked =>
      cases checked with
      | true => exact (reads_breaks "[x] " (by simp)).under elements
      | false => exact (reads_breaks "[ ] " (by simp)).under elements
  | math display t => exact Reads.empty _
  | footnoteReference label => exact Reads.empty _

/-! ## The state -/

theorem openTag_image {s : State} {tag : Tag} (h : tag.isImage = false) :
    (openTag s tag).1.image = s.image := by
  cases tag <;> first | rfl | cases h

theorem openTag_inHead (s : State) (tag : Tag) :
    (openTag s tag).1.table.inHead =
      if tag = .tableHead then true
      else if tag.content = .table then false else s.table.inHead := by
  cases tag <;> simp [openTag, Tag.content]

theorem closeTag_image (s : State) (c : Closing) : (closeTag s c).1.image = s.image := by
  cases c with
  | codeBlock => cases h : s.code <;> simp [closeTag, h]
  | _ => rfl

theorem closeTag_inHead (s : State) (tag : Tag) :
    (closeTag s tag.closing).1.table.inHead =
      if tag = .tableHead then false else s.table.inHead := by
  cases tag with
  | codeBlock info => cases h : s.code <;> simp [Tag.closing, closeTag, h]
  | _ => simp [Tag.closing, closeTag]

theorem step_leaf_state (hardLineBreak : Bool) (s : State) {e : Event} (he : e.isLeaf = true) :
    ((step hardLineBreak s e).1.image.map fun i => i.depth + 1) =
        (s.image.map fun i => i.depth + 1) ∧
      (step hardLineBreak s e).1.table = s.table := by
  cases e with
  | opening tag => cases he
  | closing c => cases he
  | text t => cases hcode : s.code <;> cases himage : s.image <;> simp [step, hcode, himage]
  | code t | softBreak => cases himage : s.image <;> simp [step, himage]
  | _ => exact ⟨rfl, rfl⟩

/-- The closing of an image that no inner image is open in. -/
theorem leave_last {s : State} {i : PendingImage} {tag : Tag} (ht : tag.isImage = true)
    (h : i.depth = 0) : i.leave s tag.closing = ({ s with image := none }, i.write) := by
  cases tag with
  | image destination title => simp only [Tag.closing, PendingImage.leave, h]
  | _ => cases ht

/-- The closing of a container inside an image keeps the count of the images around it. -/
theorem leave_inner {s : State} {i : PendingImage} {tag : Tag} {n : Nat} (hs : s.image = some i)
    (hn : 1 ≤ n) (h : i.depth + 1 = n + if tag.isImage = true then 1 else 0) :
    (i.leave s tag.closing).2 = "" ∧
      ((i.leave s tag.closing).1.image.map fun i => i.depth + 1) = some n ∧
      (i.leave s tag.closing).1.table = s.table := by
  by_cases ht : tag.isImage = true
  · rw [if_pos ht] at h
    obtain ⟨k, hk⟩ : ∃ k, i.depth = k + 1 := ⟨i.depth - 1, by omega⟩
    cases tag with
    | image destination title =>
        simp only [Tag.closing, PendingImage.leave, hk, Option.map_some, Option.some.injEq]
        exact ⟨trivial, by omega, trivial⟩
    | _ => cases ht
  · rw [if_neg ht] at h
    have hleave : i.leave s tag.closing = (s, "") := by
      cases tag <;> first | rfl | exact absurd rfl ht
    rw [hleave, hs]
    exact ⟨rfl, congrArg some h, rfl⟩

end WikiPress.Xhtml
