import WikiPress.Proofs.Storage.Frames
import WikiPress.Proofs.Xhtml.Elements

/-!
# WikiPress.Proofs.Storage.Elements

The elements the storage writer has open at a point of a document.

Design points:

* A macro is a few elements around its content. A code macro opens and closes its own at
  once; the others are open as long as their container (`macroElements`).
* Inside an attachment macro and inside an image left to the XHTML writer nothing else is
  open, so a container counts by the mode it was opened in (`elementsAt`).
-/

namespace WikiPress.Storage

open WikiPress.Markup
open WikiPress.Xml (Reader Reads escape)

variable {elements : List (List Char)}

/-! ## Macros -/

theorem reads_parameter {name : String} (value : String)
    (hname : Reads ⟨.text, []⟩ ("<ac:parameter ac:name=\"" ++ name ++ "\">")
      ⟨.text, ["ac:parameter".toList]⟩) :
    Reads ⟨.text, elements⟩ (parameter name value) ⟨.text, elements⟩ := by
  have hback : Reads ⟨.text, "ac:parameter".toList :: elements⟩ "</ac:parameter>"
      ⟨.text, elements⟩ :=
    Reads.closing (t := ["ac:parameter".toList]) (by decide) elements
  exact ((hname.under elements).append (Reads.escape_text _ value)).append hback

/-- The elements of a tip macro. -/
def tipElements : List (List Char) :=
  ["ac:rich-text-body".toList, "ac:structured-macro".toList]

theorem reads_tipStart (title : String) :
    Reads ⟨.text, elements⟩ (tipStart title) ⟨.text, tipElements ++ elements⟩ := by
  have hattached : Reads ⟨.text, elements⟩ "<ac:structured-macro ac:name=\"tip\">"
      ⟨.text, "ac:structured-macro".toList :: elements⟩ :=
    Reads.under (t := ["ac:structured-macro".toList]) (by decide) elements
  have hbody : Reads ⟨.text, "ac:structured-macro".toList :: elements⟩ "<ac:rich-text-body>"
      ⟨.text, tipElements ++ elements⟩ :=
    Reads.under (t := ["ac:rich-text-body".toList]) (by decide) _
  exact (hattached.append (reads_parameter title (by decide))).append hbody

theorem reads_tipEnd : Reads ⟨.text, tipElements ++ elements⟩ tipEnd ⟨.text, elements⟩ :=
  Reads.closing (by decide) elements

/-- Whatever code and language are, the macro is complete. -/
theorem reads_codeMacro (language content : String) :
    Reads ⟨.text, elements⟩ (codeMacro language content) ⟨.text, elements⟩ := by
  have hattached : Reads ⟨.text, elements⟩ "<ac:structured-macro ac:name=\"code\">"
      ⟨.text, "ac:structured-macro".toList :: elements⟩ :=
    Reads.under (t := ["ac:structured-macro".toList]) (by decide) elements
  have hbody : Reads ⟨.text, "ac:structured-macro".toList :: elements⟩
      "<ac:plain-text-body><![CDATA["
      ⟨.section 0, "ac:plain-text-body".toList :: "ac:structured-macro".toList :: elements⟩ :=
    Reads.under (t := ["ac:plain-text-body".toList]) (by decide) _
  obtain ⟨n, hcontent⟩ := Reads.cdata
    ("ac:plain-text-body".toList :: "ac:structured-macro".toList :: elements) content
  have hclose : Reads ⟨.text, ["ac:plain-text-body".toList]⟩ "</ac:plain-text-body>"
      ⟨.text, []⟩ := by decide
  have hend : Reads
      ⟨.section n, "ac:plain-text-body".toList :: "ac:structured-macro".toList :: elements⟩
      "]]></ac:plain-text-body>" ⟨.text, "ac:structured-macro".toList :: elements⟩ :=
    (Reads.section_end n _).append (hclose.closing _)
  have hlast : Reads ⟨.text, "ac:structured-macro".toList :: elements⟩ "</ac:structured-macro>"
      ⟨.text, elements⟩ :=
    Reads.closing (t := ["ac:structured-macro".toList]) (by decide) elements
  exact (((((((hattached.append (reads_parameter "true" (by decide))).append
    (reads_parameter codeTheme (by decide))).append
    (reads_parameter language (by decide))).append hbody).append hcontent).append hend).append
    hlast)

/-- The elements of an attachment macro. -/
def macroElements : ReferenceKind → List (List Char)
  | .link => ["ac:plain-text-link-body".toList, "ac:link".toList]
  | .image => ["ri:attachment".toList, "ac:image".toList]

theorem reads_pageReference (page : Option String) :
    Reads ⟨.text, elements⟩ ((page.map pageReference).getD "") ⟨.text, elements⟩ := by
  cases page with
  | none => exact Reads.empty _
  | some title =>
      have hfront : Reads ⟨.text, elements⟩ "<ri:page ri:content-title=\""
          ⟨.value "ri:page".toList ["ri:content-title".toList], elements⟩ :=
        Reads.under (t := []) (by decide) elements
      have hback : Reads ⟨.value "ri:page".toList ["ri:content-title".toList], elements⟩ "\"/>"
          ⟨.text, elements⟩ := rfl
      exact (hfront.append (Reads.escape_value _ _ _ title)).append hback

theorem reads_attachment (filename : String) (page : Option String) :
    Reads ⟨.text, elements⟩
      ("<ri:attachment ri:filename=\"" ++ escape filename ++ "\">" ++
        (page.map pageReference).getD "")
      ⟨.text, "ri:attachment".toList :: elements⟩ := by
  have hfront : Reads ⟨.text, elements⟩ "<ri:attachment ri:filename=\""
      ⟨.value "ri:attachment".toList ["ri:filename".toList], elements⟩ :=
    Reads.under (t := []) (by decide) elements
  have hback : Reads ⟨.value "ri:attachment".toList ["ri:filename".toList], elements⟩ "\">"
      ⟨.text, "ri:attachment".toList :: elements⟩ := rfl
  exact ((hfront.append (Reads.escape_value _ _ _ filename)).append hback).append
    (reads_pageReference page)

/-- Where the children of an attachment macro stand. -/
def childPlace : ReferenceKind → Xml.Place
  | .link => .section 0
  | .image => .text

theorem reads_attachmentStart (kind : ReferenceKind) (filename : String) (page : Option String) :
    Reads ⟨.text, elements⟩ (attachmentStart kind filename page)
      ⟨childPlace kind, macroElements kind ++ elements⟩ := by
  cases kind with
  | image =>
      have hattached : Reads ⟨.text, elements⟩ "<ac:image>"
          ⟨.text, "ac:image".toList :: elements⟩ :=
        Reads.under (t := ["ac:image".toList]) (by decide) elements
      exact hattached.append (reads_attachment filename page)
  | link =>
      have hattached : Reads ⟨.text, elements⟩ "<ac:link>" ⟨.text, "ac:link".toList :: elements⟩ :=
        Reads.under (t := ["ac:link".toList]) (by decide) elements
      have hbody : Reads ⟨.text, ["ri:attachment".toList, "ac:link".toList]⟩
          "</ri:attachment><ac:plain-text-link-body><![CDATA["
          ⟨.section 0, macroElements .link⟩ := by decide
      exact (hattached.append (reads_attachment filename page)).append (hbody.around elements)

theorem reads_attachmentEnd_image :
    Reads ⟨.text, macroElements .image ++ elements⟩ (attachmentEnd .image) ⟨.text, elements⟩ :=
  Reads.closing (by decide) elements

theorem reads_attachmentEnd_link (n : Nat) :
    Reads ⟨.section n, macroElements .link ++ elements⟩ (attachmentEnd .link)
      ⟨.text, elements⟩ := by
  have hclose : Reads ⟨.text, macroElements .link⟩ "</ac:plain-text-link-body></ac:link>"
      ⟨.text, []⟩ := by decide
  exact (Reads.section_end n _).append (hclose.closing elements)

/-! ## Open containers -/

/-- The elements that are open for a container of some content, which was opened in a
mode. -/
def elementsAt (folder : String) (mode : Mode) (inner : Content) (o : Opened) :
    List (List Char) :=
  match mode, (tagMode folder o.tag).macroBody with
  | .markup, some kind => macroElements kind
  | .markup, none => if o.tag = .blockQuote then tipElements else Xhtml.elementsOf inner o
  | _, _ => []

/-- The elements that are open inside some containers, innermost first. -/
def elementsIn (folder : String) : Content → List Opened → List (List Char)
  | _, [] => []
  | inner, o :: rest =>
      elementsAt folder (modeInside folder (rest.map Opened.tag)) inner o ++
        elementsIn folder o.outer rest

/-- Only running text stands elsewhere than in markup. -/
theorem inline_of_modeInside {folder : String} {content : Content} {opened : List Opened}
    (hlinked : Linked content opened)
    (hmode : modeInside folder (opened.map Opened.tag) ≠ .markup) : content = .inline := by
  induction opened generalizing content with
  | nil => exact absurd rfl hmode
  | cons o rest ih =>
      obtain ⟨⟨inner, hin, hcontent⟩, hrest⟩ := hlinked
      suffices h : inner = .inline by
        rcases hcontent with rfl | rfl
        · exact h
        · rw [h]; rfl
      by_cases hm : modeInside folder (rest.map Opened.tag) = .markup
      -- the container leaves markup, so it is an image or a link
      · rw [List.map_cons, modeInside_cons_of_markup hm] at hmode
        have href : ¬ referenceKind o.tag = none := fun h =>
          hmode (tagMode_of_not_reference h)
        rcases Content.inside_cases hin with ⟨-, -, h⟩ | ⟨-, h, -⟩ | ⟨-, ht, -⟩ | ⟨-, ht, -⟩ |
          ⟨-, -, h⟩
        · exact h
        · rw [h]
          cases ht : o.tag <;> simp_all [referenceKind, Tag.content]
        · exact absurd (by rw [ht]; rfl) href
        · exact absurd (by rw [ht]; rfl) href
        · exact h
      · have houter := ih hrest hm
        rw [houter] at hin
        exact (Content.inside_inline hin).2

/-- Where the head of a table may come next, the table is open. -/
theorem table_of_linked {opened : List Opened} (h : Linked .table opened) :
    ∃ alignments rest, opened = ⟨.table alignments, .flow⟩ :: rest := by
  cases opened with
  | nil => cases h
  | cons o rest =>
      obtain ⟨⟨inner, hin, hcontent⟩, -⟩ := h
      have hinner : inner = .table := by
        rcases hcontent with rfl | h
        · rfl
        · cases inner <;> cases h
      obtain ⟨tag, outer⟩ := o
      rcases Content.inside_cases hin with ⟨-, -, h⟩ | ⟨ho, h, -⟩ | ⟨-, -, h⟩ | ⟨-, -, h⟩ |
        ⟨-, -, h⟩
      · rw [hinner] at h; cases h
      · obtain rfl : outer = .flow := ho
        rw [hinner] at h
        cases tag with
        | table alignments => exact ⟨alignments, rest, rfl⟩
        | _ => cases h
      · rw [hinner] at h; cases h
      · rw [hinner] at h; cases h
      · rw [hinner] at h; cases h

/-- Behind its head a table has a body open, and behind anything else nothing changes. -/
theorem elementsIn_after {folder : String} {content : Content} {opened : List Opened}
    {o : Opened} (hlinked : Linked o.outer opened)
    (hin : o.outer.inside o.tag = some content) :
    elementsIn folder o.outer.after opened =
      Xhtml.elementsBehind o.tag ++ elementsIn folder o.outer opened := by
  obtain ⟨tag, outer⟩ := o
  by_cases houter : outer = .table
  · subst houter
    obtain ⟨alignments, rest, rfl⟩ := table_of_linked hlinked
    -- what closes directly in a table is its head
    have htag : tag = .tableHead := by
      rcases Content.inside_cases hin with ⟨h, -⟩ | ⟨h, -⟩ | ⟨-, h, -⟩ | ⟨h, -⟩ | ⟨h, -⟩
      · cases h
      · cases h
      · exact h
      · cases h
      · rcases h with h | h <;> cases h
    have hmode : modeInside folder (rest.map Opened.tag) = .markup := by
      by_cases h : modeInside folder (rest.map Opened.tag) = .markup
      · exact h
      · exact absurd (inline_of_modeInside hlinked.2 h) (by simp)
    subst htag
    simp only [elementsIn, hmode]
    rfl
  · have hafter : outer.after = outer := by cases outer <;> first | rfl | exact absurd rfl houter
    have hbehind : Xhtml.elementsBehind tag = [] := by
      cases tag with
      | tableHead =>
          cases outer with
          | table => exact absurd rfl houter
          | _ => cases hin
      | _ => rfl
    show elementsIn folder outer.after opened = _
    rw [hafter, hbehind]
    rfl

end WikiPress.Storage
