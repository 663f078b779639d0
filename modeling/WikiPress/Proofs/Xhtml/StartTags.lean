import WikiPress.Proofs.Markup.Shape
import WikiPress.Proofs.Xml.StartTags
import WikiPress.Xhtml.Writer

/-!
# WikiPress.Proofs.Xhtml.StartTags

The elements the XHTML writer starts.

Every element the writer starts by itself has a name without a prefix, in whatever state it
is and whatever destinations, titles and texts the document gives it. Only raw markup, which
it copies, may start anything else.
-/

namespace WikiPress.Xhtml

open WikiPress.Markup
open WikiPress.Xml (EndsApart StartsOnly startTags)

/-- The name of an element of no other namespace. -/
def Unprefixed (name : List Char) : Prop := ':' ∉ name

instance (name : List Char) : Decidable (Unprefixed name) := inferInstanceAs (Decidable (¬ _))

theorem startsOnly_titleAttribute (title : String) :
    StartsOnly Unprefixed (titleAttribute title) := by
  unfold titleAttribute
  split
  · exact StartsOnly.empty
  · exact ((StartsOnly.of_not_mem (by decide)).append (StartsOnly.escape title)).append
      (StartsOnly.of_not_mem (by decide))

theorem startsOnly_listStart (start : Option Nat) : StartsOnly Unprefixed (listStart start) := by
  unfold listStart
  split
  · exact StartsOnly.literal (by decide)
  · exact StartsOnly.literal (by decide)
  · next n _ =>
      have hopen : StartsOnly Unprefixed "<ol start=\"" := StartsOnly.literal (by decide)
      have hnumber : StartsOnly Unprefixed (toString n) := by
        refine StartsOnly.of_not_mem fun hmem => ?_
        rw [Nat.toString_eq_repr, Nat.toList_repr] at hmem
        have hdigit := Nat.isDigit_of_mem_toDigits (by decide) (by decide) hmem
        simp at hdigit
      exact (hopen.append hnumber).append (StartsOnly.of_not_mem (by decide))

/-- The tags of a heading; one with an identifier goes on. -/
def headingTags (level : Nat) : List String :=
  ["<h" ++ toString level ++ ">", "<h" ++ toString level ++ " id=\"",
    "</h" ++ toString level ++ ">"]

theorem startsOnly_heading (level : HeadingLevel) {s : String}
    (hs : s ∈ headingTags level.number) : StartsOnly Unprefixed s := by
  have hall : ∀ n < 7, 1 ≤ n → ∀ s ∈ headingTags n,
      EndsApart s.toList ∧ ∀ name ∈ startTags none s.toList, Unprefixed name := by
    decide
  exact StartsOnly.literal (hall level.number (Nat.lt_succ_of_le level.le_six) level.one_le s hs)

theorem startsOnly_headingStart (level : HeadingLevel) (id : Option String) :
    StartsOnly Unprefixed (headingStart level id) := by
  cases id with
  | none => exact startsOnly_heading level List.mem_cons_self
  | some id =>
      have hopen : StartsOnly Unprefixed ("<h" ++ toString level.number ++ " id=\"") :=
        startsOnly_heading level (by simp [headingTags])
      exact (hopen.append (StartsOnly.escape id)).append (StartsOnly.of_not_mem (by decide))

theorem startsOnly_linkStart (kind : LinkKind) (destination title : String) :
    StartsOnly Unprefixed (linkStart kind destination title) := by
  have hopen : StartsOnly Unprefixed "<a href=\"" := StartsOnly.literal (by decide)
  have hscheme : StartsOnly Unprefixed (if kind = .email then "mailto:" else "") := by
    split
    · exact StartsOnly.of_not_mem (by decide)
    · exact StartsOnly.empty
  exact ((((hopen.append hscheme).append (StartsOnly.escape destination)).append
    (StartsOnly.of_not_mem (by decide))).append (startsOnly_titleAttribute title)).append
    (StartsOnly.of_not_mem (by decide))

theorem startsOnly_image (i : PendingImage) : StartsOnly Unprefixed i.write := by
  have hopen : StartsOnly Unprefixed "<img src=\"" := StartsOnly.literal (by decide)
  exact (((((hopen.append (StartsOnly.escape i.source)).append
    (StartsOnly.of_not_mem (by decide))).append (StartsOnly.escape i.alt)).append
    (StartsOnly.of_not_mem (by decide))).append (startsOnly_titleAttribute i.title)).append
    (StartsOnly.of_not_mem (by decide))

theorem startsOnly_code (c : PendingCode) : StartsOnly Unprefixed c.write := by
  have hback : StartsOnly Unprefixed "</code></pre>" := StartsOnly.literal (by decide)
  unfold PendingCode.write
  split
  · next language _ =>
      have hopen : StartsOnly Unprefixed "<pre><code class=\"language-" :=
        ⟨["pre".toList, "code".toList], fun _ => rfl, by decide⟩
      exact (((hopen.append (StartsOnly.escape language)).append
        (StartsOnly.of_not_mem (by decide))).append (StartsOnly.escape c.text)).append hback
  · have hopen : StartsOnly Unprefixed "<pre><code>" := StartsOnly.literal (by decide)
    exact (hopen.append (StartsOnly.escape c.text)).append hback

theorem startsOnly_cell (inHead : Bool) (alignment : ColumnAlignment) :
    StartsOnly Unprefixed
        ("<" ++ (if inHead then "th" else "td") ++ alignmentStyle alignment ++ ">") ∧
      StartsOnly Unprefixed ("</" ++ (if inHead then "th" else "td") ++ ">") := by
  cases inHead <;> cases alignment <;>
  exact ⟨StartsOnly.literal (by decide), StartsOnly.literal (by decide)⟩

theorem startsOnly_openTag (s : State) (tag : Tag) :
    StartsOnly Unprefixed (openTag s tag).2 := by
  cases tag with
  | heading level id => exact startsOnly_headingStart level id
  | list start => exact startsOnly_listStart start
  | link kind destination title => exact startsOnly_linkStart kind destination title
  | tableCell => exact (startsOnly_cell s.table.inHead _).1
  | codeBlock info | htmlBlock | footnoteDefinition label | image source title | metadata =>
      exact StartsOnly.empty
  | _ =>
      simp only [openTag]
      exact StartsOnly.literal (by decide)

theorem startsOnly_closeTag (s : State) (c : Closing) :
    StartsOnly Unprefixed (closeTag s c).2 := by
  cases c with
  | heading level =>
      simp only [closeTag]
      exact startsOnly_heading level (by simp [headingTags])
  | tableCell => exact (startsOnly_cell s.table.inHead .unset).2
  | codeBlock =>
      simp only [closeTag]
      split
      · exact startsOnly_code _
      · exact StartsOnly.empty
  | list numbered =>
      simp only [closeTag]
      split
      · exact StartsOnly.literal (by decide)
      · exact StartsOnly.literal (by decide)
  | htmlBlock | footnoteDefinition | image | metadata => exact StartsOnly.empty
  | _ =>
      simp only [closeTag]
      exact StartsOnly.literal (by decide)

/-- Whatever the writer adds for an event that is no raw markup, it starts no element of
another namespace. -/
theorem startsOnly_step (hardLineBreak : Bool) (s : State) {e : Event} (hraw : e.isRaw = false) :
    StartsOnly Unprefixed (step hardLineBreak s e).2 := by
  have hbreak : StartsOnly Unprefixed "<br />" := StartsOnly.literal (by decide)
  cases e with
  | html t | inlineHtml t => cases hraw
  | opening tag =>
      simp only [step]
      split
      · exact StartsOnly.empty
      · exact startsOnly_openTag s tag
  | closing c =>
      simp only [step]
      split
      · next i _ =>
          cases c with
          | image =>
              simp only [PendingImage.leave]
              split
              · exact startsOnly_image i
              · exact StartsOnly.empty
          | _ => exact StartsOnly.empty
      · exact startsOnly_closeTag s c
  | text t =>
      simp only [step]
      split
      · exact StartsOnly.empty
      · exact StartsOnly.empty
      · exact StartsOnly.escape t
  | code t =>
      have hopen : StartsOnly Unprefixed "<code>" := StartsOnly.literal (by decide)
      have hback : StartsOnly Unprefixed "</code>" := StartsOnly.literal (by decide)
      simp only [step]
      split
      · exact StartsOnly.empty
      · exact (hopen.append (StartsOnly.escape t)).append hback
  | softBreak =>
      simp only [step]
      split
      · exact StartsOnly.empty
      · show StartsOnly Unprefixed (if hardLineBreak then "<br />" else "\n")
        split
        · exact hbreak
        · exact StartsOnly.of_not_mem (by decide)
  | hardBreak => exact hbreak
  | rule =>
      simp only [step]
      exact StartsOnly.literal (by decide)
  | taskMarker checked =>
      simp only [step]
      split
      · exact StartsOnly.of_not_mem (by decide)
      · exact StartsOnly.of_not_mem (by decide)
  | math display t => exact StartsOnly.empty
  | footnoteReference label => exact StartsOnly.empty

end WikiPress.Xhtml
