import WikiPress.Markup.Document
import WikiPress.Proofs.Storage.Frames

/-!
# WikiPress.Proofs.Storage.Delegation

Documents without anything the wiki has a macro for are written as plain XHTML.

Design points:

* The two writers run side by side. While no attachment macro is open, the storage
  writer hands every event on and keeps the frames of the open tags, so its own state
  never shows in the text.
* An image decides about everything inside it: the XHTML writer counts the images there,
  and so none of them is looked up, whatever it names (`not_image_of_markup`).
-/

namespace WikiPress.Storage

open WikiPress.Markup
open WikiPress.Attachment (classify localPath reference)

/-- An image or link that names no attachment. Email links never do. -/
def External (folder : String) : Tag → Prop
  | .image destination _ => classify folder destination = none
  | .link kind destination _ => kind = .email ∨ classify folder destination = none
  | _ => True

/-- A tag that is external, or stands in the alternative text of an image. -/
def ExternalOrAlternative (folder : String) (outer : List Tag) (tag : Tag) : Prop :=
  (∀ t ∈ outer, t.isImage = false) → External folder tag

/-- A destination names an attachment exactly if it has a directory. -/
theorem reference_eq_none_iff {folder destination : String} :
    reference folder destination = none ↔ classify folder destination = none := by
  cases hc : classify folder destination with
  | none => simp [reference, hc]
  | some directory =>
      cases hp : localPath destination.toList with
      | none => simp [classify, hp] at hc
      | some path => simp [reference, hc, hp]

theorem macroBody_of_external {folder : String} {tag : Tag} (h : External folder tag) :
    (tagMode folder tag).macroBody = none := by
  cases tag with
  | image destination title =>
      have hr : reference folder destination = none := reference_eq_none_iff.2 h
      simp [tagMode, hr, Mode.macroBody]
  | link kind destination title =>
      rcases h with hk | hc
      · simp [tagMode, hk, Mode.macroBody]
      · have hr : reference folder destination = none := reference_eq_none_iff.2 hc
        simp [tagMode, hr, Mode.macroBody]
  | _ => rfl

/-- A stream inside some open tags that holds nothing with a macro of its own. -/
structure PlainFrom (style : Style) (tags : List Tag) (es : List Event) : Prop where
  nested : nest tags es = some []
  quoteOpen : Tag.blockQuote ∉ tags
  quote : Event.opening .blockQuote ∉ es
  code : ∀ info, Event.opening (.codeBlock info) ∈ es → languageOf info = style.diagramLanguage
  external : AtOpenings (ExternalOrAlternative style.attachmentsFolder) tags es

variable {style : Style} {tags : List Tag} {e : Event} {es : List Event}

/-- What follows the first event is plain inside the tags that event leaves open. -/
theorem PlainFrom.tail (h : PlainFrom style tags (e :: es)) :
    nestStep tags e = some (openStep tags e) ∧ PlainFrom style (openStep tags e) es := by
  have hn := h.nested
  rw [nest_cons] at hn
  obtain ⟨mid, hstep, hrest⟩ := Option.bind_eq_some_iff.1 hn
  rw [openStep_of_nestStep hstep]
  refine ⟨hstep, hrest, ?_, ?_, ?_, ?_⟩
  · intro hmem
    cases e with
    | opening tag =>
        obtain rfl := Option.some.inj hstep
        rcases List.mem_cons.1 hmem with rfl | hmem
        · exact h.quote List.mem_cons_self
        · exact h.quoteOpen hmem
    | closing c =>
        obtain ⟨tag, rfl, -⟩ := nestStep_closing hstep
        exact h.quoteOpen (List.mem_cons_of_mem _ hmem)
    | _ =>
        obtain rfl := Option.some.inj hstep
        exact h.quoteOpen hmem
  · exact fun hmem => h.quote (List.mem_cons_of_mem _ hmem)
  · exact fun info hmem => h.code info (List.mem_cons_of_mem _ hmem)
  · rw [← openStep_of_nestStep hstep]
    exact h.external.2

/-- Where a plain stream opens an image or link in markup, it names no attachment. -/
theorem PlainFrom.delegable {tag : Tag} (h : PlainFrom style tags (.opening tag :: es)) :
    Delegable style (modeInside style.attachmentsFolder tags) (.opening tag) := by
  have hext : modeInside style.attachmentsFolder tags = .markup →
      (tagMode style.attachmentsFolder tag).macroBody = none := fun hm =>
    macroBody_of_external (h.external.1 tag rfl (not_image_of_markup hm))
  cases tag with
  | blockQuote => exact absurd List.mem_cons_self h.quote
  | codeBlock info => exact h.code info List.mem_cons_self
  | _ => exact hext

/-- The first event of a plain stream goes to the XHTML writer, and no macro is opened. -/
theorem PlainFrom.step (context : Context) (h : PlainFrom style tags (e :: es)) {s : State}
    (hc : s.code = none) (hf : s.frames = framesInside style.attachmentsFolder tags)
    (hm : (modeInside style.attachmentsFolder tags).macroBody = none) :
    step style context s e = delegate style
        { s with frames := framesInside style.attachmentsFolder (openStep tags e) } e ∧
      (modeInside style.attachmentsFolder (openStep tags e)).macroBody = none := by
  have hnest := h.tail.1
  cases e with
  | opening tag =>
      refine ⟨step_opening_delegated hc hf hm h.delegable, ?_⟩
      show (modeInside style.attachmentsFolder (tag :: tags)).macroBody = none
      -- in an alternative text nothing becomes a macro, whatever it refers to
      by_cases hmode : modeInside style.attachmentsFolder tags = .markup
      · rw [modeInside_cons_of_markup hmode]
        exact macroBody_of_external (h.external.1 tag rfl (not_image_of_markup hmode))
      · rw [modeInside_cons_of_ne hmode, hm]
  | closing c =>
      obtain ⟨tag, htags, rfl⟩ := nestStep_closing hnest
      rw [htags] at hf hm
      -- a quote that closes was opened in the stream, which has none
      have hq : tag ≠ .blockQuote := by
        rintro rfl
        exact h.quoteOpen (by rw [htags]; exact List.mem_cons_self)
      refine ⟨step_closing_delegated hc hf hm hq, ?_⟩
      by_cases hmode : modeInside style.attachmentsFolder (openStep tags (.closing tag.closing))
          = .markup
      · rw [hmode]; rfl
      · rw [modeInside_cons_of_ne hmode] at hm
        exact hm
  | _ =>
      refine ⟨?_, hm⟩
      rw [step_leaf_delegated hc hf hm rfl]
      simp only [openStep, ← hf]

/-- A plain stream adds to the body what the XHTML writer makes of it, event by event. -/
theorem run_of_plain (context : Context) (h : PlainFrom style tags es) {s : State}
    (hc : s.code = none)
    (hf : s.frames = framesInside style.attachmentsFolder tags)
    (hm : (modeInside style.attachmentsFolder tags).macroBody = none) :
    (run style context s es).2 = (Xhtml.run style.hardLineBreak s.html es).2 ∧
      (run style context s es).1.attachments = s.attachments := by
  induction es generalizing tags s with
  | nil => exact ⟨rfl, rfl⟩
  | cons e es ih =>
      obtain ⟨hstep, hmode⟩ := h.step context hc hf hm
      rw [run_cons, hstep, Xhtml.run_cons]
      have hrest := ih h.tail.2 (s := (delegate style
        { s with frames := framesInside style.attachmentsFolder (openStep tags e) } e).1)
        hc rfl hmode
      exact ⟨congrArg _ hrest.1, hrest.2⟩

/-- **Delegation is faithful.** A balanced stream without block quotes, in which every
code block is a diagram and every image or link outside the alternative text of images
is external, is written as the table of contents and its XHTML, with no attachments.
What images and links inside alternative text name makes no difference. -/
theorem write_eq_xhtml (style : Style) (context : Context) (es : List Event)
    (hbalanced : Balanced es) (hquote : Event.opening .blockQuote ∉ es)
    (hcode : ∀ info, Event.opening (.codeBlock info) ∈ es →
      languageOf info = style.diagramLanguage)
    (hexternal : AtOpenings (ExternalOrAlternative style.attachmentsFolder) [] es) :
    write style context es =
      ⟨tableOfContents ++ Xhtml.render style.hardLineBreak es, []⟩ := by
  have hplain : PlainFrom style [] es :=
    ⟨balanced_iff_nest.1 hbalanced, List.not_mem_nil, hquote, hcode, hexternal⟩
  obtain ⟨hpieces, hattachments⟩ :=
    run_of_plain context hplain (s := .start) rfl rfl rfl
  simp only [write, hpieces, hattachments]
  rfl

/-- An external image whose alternative text holds an image and a link that name files. -/
theorem write_eq_xhtml_nested_image :
    let es := enclose .paragraph (enclose (.image "https://example.com/o.png" "")
      (enclose (.image "in.png" "") [.text "in"] ++
        enclose (.link .inline "in.pdf" "") [.softBreak, .inlineHtml "<i>"]))
    write {} {} es = ⟨tableOfContents ++ Xhtml.render false es, []⟩ := by
  intro es
  refine write_eq_xhtml {} {} es (by decide) (by decide) (by simp [es, enclose]) ?_
  have houter : classify Attachment.defaultFolder "https://example.com/o.png" = none := by
    decide +kernel
  simp [es, enclose, AtOpenings, openStep, Tag.closing, ExternalOrAlternative, External, houter,
    Tag.isImage]

end WikiPress.Storage
