import WikiPress.Markup.Document
import WikiPress.Proofs.Storage.Follows
import WikiPress.Proofs.Storage.LinkBody
import WikiPress.Proofs.Xhtml.StartTags

/-!
# WikiPress.Proofs.Storage.Attachments

The attachments that are reported and the macros that are written.

Design points:

* `rewritten` says which images and links become macros by the tags around them alone, each
  of which is rewritten or not by the tags around it in turn. The writer decides by a stack of
  frames, and the two agree because a tag that is spared stands in markup (`spares_iff`).
* What the writer does with an event is said once for each of three kinds: it opens a macro
  (`Follows.step_opens`), closes one (`Follows.step_closes`), or does neither
  (`Follows.step_elsewhere`). What is reported and what is written is read off these three.
* That a text opens no macro is said by the elements it starts, sections aside
  (`Xml.startTags`). Raw markup may start anything, but it is copied as it is.
-/

namespace WikiPress.Storage

open WikiPress.Markup
open WikiPress.Attachment (Reference)
open WikiPress.Xml (StartsOnly escape startTags)

/-! ## What is rewritten -/

/-- Whether an image or link may be rewritten inside some open tags, innermost first: none of
them is rewritten, and none is an image that is left to the XHTML writer. -/
def spares (folder : String) : List Tag → Bool
  | [] => true
  | tag :: outer =>
      let attached := spares folder outer && (named folder tag).isSome
      spares folder outer && !attached && !(tag.isImage && !attached)

/-- The attachment a container is rewritten for, inside some open tags. -/
def rewritten (folder : String) (outer : List Tag) (tag : Tag) : Option Reference :=
  if spares folder outer then named folder tag else none

/-- The attachment an event opens a macro for, inside some open tags. -/
def opened (folder : String) (tags : List Tag) : Event → Option Reference
  | .opening tag => rewritten folder tags tag
  | _ => none

/-- The attachments the events of a stream open macros for, in order. -/
def openedIn (folder : String) : List Tag → List Event → List Reference
  | _, [] => []
  | tags, e :: es => (opened folder tags e).toList ++ openedIn folder (openStep tags e) es

/-- The attachment an event opens or closes a macro for, inside some open tags. -/
def handled (folder : String) (tags : List Tag) : Event → Option Reference
  | .opening tag => rewritten folder tags tag
  | .closing _ =>
      match tags with
      | tag :: outer => rewritten folder outer tag
      | [] => none
  | _ => none

variable {folder : String} {tag : Tag} {tags : List Tag}

theorem named_of_not_reference (h : referenceKind tag = none) : named folder tag = none := by
  cases tag <;> first | rfl | cases h

theorem referenceKind_of_named {r : Reference} (h : named folder tag = some r) :
    ∃ kind, referenceKind tag = some kind := by
  cases hk : referenceKind tag with
  | none =>
      rw [named_of_not_reference hk] at h
      cases h
  | some kind => exact ⟨kind, rfl⟩

/-- A container in markup is followed by markup unless it is rewritten or an image. -/
theorem tagMode_eq_markup_iff :
    tagMode folder tag = .markup ↔ named folder tag = none ∧ tag.isImage = false := by
  cases tag with
  | image destination title =>
      by_cases hr : (Attachment.reference folder destination).isSome <;>
      simp [tagMode, hr, Tag.isImage]
  | link kind destination title =>
      by_cases hk : kind = .email
      · simp [tagMode, named, hk, Tag.isImage]
      · cases hr : Attachment.reference folder destination <;>
        simp [tagMode, named, hk, hr, Tag.isImage]
  | _ => simp [tagMode, named, Tag.isImage]

/-- Images and links are rewritten where the writer is in markup. -/
theorem spares_iff : spares folder tags = true ↔ modeInside folder tags = .markup := by
  induction tags with
  | nil => simp [spares, modeInside]
  | cons tag outer ih =>
      by_cases hm : modeInside folder outer = .markup
      · rw [modeInside_cons_of_markup hm, tagMode_eq_markup_iff]
        simp only [spares, ih.2 hm, Bool.true_and]
        cases named folder tag <;> simp
      · have hspares : spares folder outer = false := by simpa using ih.not.2 hm
        simp [spares, hspares, modeInside_cons_of_ne hm, hm]

theorem rewritten_eq_some_iff {r : Reference} :
    rewritten folder tags tag = some r ↔
      modeInside folder tags = .markup ∧ named folder tag = some r := by
  rw [rewritten, ← spares_iff]
  split
  · next h => simp [h]
  · next h => simp [h]

/-- A container in markup that is not rewritten has no macro. -/
theorem macroBody_of_not_rewritten (hm : modeInside folder tags = .markup)
    (h : rewritten folder tags tag = none) : (tagMode folder tag).macroBody = none := by
  have hnamed : named folder tag = none := by
    cases hr : named folder tag with
    | none => rfl
    | some r =>
        rw [rewritten_eq_some_iff.2 ⟨hm, hr⟩] at h
        cases h
  rw [macroBody_tagMode, hnamed]
  rfl

/-! ## What is started -/

/-- The elements that attachment macros consist of. -/
def attachmentElements : List (List Char) :=
  ["ac:image".toList, "ac:link".toList, "ri:attachment".toList, "ri:page".toList,
    "ac:plain-text-link-body".toList]

/-- The name of an element that belongs to no attachment macro. -/
def Unattached (name : List Char) : Prop := name ∉ attachmentElements

instance (name : List Char) : Decidable (Unattached name) := inferInstanceAs (Decidable (¬ _))

theorem unattached_of_unprefixed {name : List Char} (h : Xhtml.Unprefixed name) :
    Unattached name := by
  have hcolon : ∀ name ∈ attachmentElements, ':' ∈ name := by decide
  exact fun hmem => h (hcolon name hmem)

theorem startsOnly_parameter {name : String} (value : String) (h : '<' ∉ name.toList) :
    StartsOnly Unattached (parameter name value) := by
  have hopen : StartsOnly Unattached "<ac:parameter ac:name=\"" :=
    StartsOnly.literal (by decide)
  have hback : StartsOnly Unattached "</ac:parameter>" := StartsOnly.literal (by decide)
  exact (((hopen.append (StartsOnly.of_not_mem h)).append
    (StartsOnly.of_not_mem (by decide))).append (StartsOnly.escape value)).append hback

theorem startsOnly_tipStart (title : String) : StartsOnly Unattached (tipStart title) := by
  have hopen : StartsOnly Unattached "<ac:structured-macro ac:name=\"tip\">" :=
    StartsOnly.literal (by decide)
  exact (hopen.append (startsOnly_parameter title (by decide))).append
    (StartsOnly.literal (by decide))

theorem startsOnly_tipEnd : StartsOnly Unattached tipEnd :=
  StartsOnly.literal (by decide)

/-- The content of a code macro starts nothing, whatever it is. -/
theorem startsOnly_codeMacro (language content : String) :
    StartsOnly Unattached (codeMacro language content) := by
  have hopen : StartsOnly Unattached "<ac:structured-macro ac:name=\"code\">" :=
    StartsOnly.literal (by decide)
  have hbody : StartsOnly Unattached
      ("<ac:plain-text-body><![CDATA[" ++ cdata content ++ "]]></ac:plain-text-body>") := by
    refine ⟨["ac:plain-text-body".toList], fun rest => ?_, by decide⟩
    obtain ⟨n, hcontent⟩ := Xml.startTags_cdataChars (Xml.continues_zero content.toList)
      (Xml.terminator ++ ("</ac:plain-text-body>".toList ++ rest))
    have hcdata : (cdata content).toList = cdataChars content.toList := String.toList_ofList
    refine (congrArg (startTags none) (Xml.toList_append_three _ _ _ rest)).trans ?_
    rw [hcdata]
    show ["ac:plain-text-body".toList] ++ startTags (some 0) (cdataChars content.toList ++ _) = _
    refine congrArg _ (hcontent.trans ?_)
    rw [Xml.startTags_section_end]
    rfl
  have hparts : ∀ front a b c last : String,
      front ++ a ++ b ++ c ++ last = front ++ (a ++ b ++ c) ++ last := by
    intro front a b c last
    simp only [String.append_assoc]
  have hcode : codeMacro language content = _ := hparts _ _ _ _ _
  rw [hcode]
  exact ((((hopen.append (startsOnly_parameter _ (by decide))).append
    (startsOnly_parameter _ (by decide))).append (startsOnly_parameter _ (by decide))).append
    hbody).append (StartsOnly.literal (by decide))

/-! ## What is done with an event -/

/-- Where the text of an event is read from that stands inside some open tags: in the section
of an attachment link, and in markup elsewhere. -/
def bracketsInside (folder : String) (tags : List Tag) : Option Nat :=
  if modeInside folder tags = .linkBody then some 0 else none

/-- The text written for an event starts no attachment macro, or is raw markup copied
outside of macros. -/
def StartsNoMacro (folder : String) (tags : List Tag) (e : Event) (piece : String) : Prop :=
  (∀ name ∈ startTags (bracketsInside folder tags) piece.toList, Unattached name) ∨
    (modeInside folder tags).macroBody = none ∧ (e = .html piece ∨ e = .inlineHtml piece)

variable {style : Style} {context : Context} {p q : Position} {s : State} {e : Event}

theorem startsNoMacro_empty (folder : String) (tags : List Tag) (e : Event) :
    StartsNoMacro folder tags e "" := by
  left
  intro name hname
  unfold bracketsInside at hname
  split at hname <;> cases hname

theorem startsNoMacro_of_startsOnly {piece : String}
    (hm : (modeInside folder tags).macroBody = none) (h : StartsOnly Unattached piece) :
    StartsNoMacro folder tags e piece := by
  have hbrackets : bracketsInside folder tags = none := by
    refine if_neg fun hlink => ?_
    rw [hlink] at hm
    cases hm
  left
  intro name hname
  rw [hbrackets] at hname
  exact h.of_mem hname

/-- What the XHTML writer adds outside of macros. -/
theorem startsNoMacro_html (hardLineBreak : Bool) (html : Xhtml.State)
    (hm : (modeInside folder tags).macroBody = none) :
    StartsNoMacro folder tags e (Xhtml.step hardLineBreak html e).2 := by
  by_cases hraw : e.isRaw = true
  · right
    refine ⟨hm, ?_⟩
    cases e with
    | html t => exact Or.inl rfl
    | inlineHtml t => exact Or.inr rfl
    | _ => cases hraw
  · have hplain := Xhtml.startsOnly_step hardLineBreak html (e := e) (by simpa using hraw)
    exact startsNoMacro_of_startsOnly hm (hplain.mono fun _ => unattached_of_unprefixed)

/-- The text of an event in the section of an attachment link. -/
theorem startsNoMacro_linkText (hm : modeInside folder tags = .linkBody) :
    StartsNoMacro folder tags e (linkText e) := by
  left
  intro name hname
  obtain ⟨n, htext⟩ := Xml.startTags_cdataChars (Xml.continues_zero (literal e)) []
  rw [bracketsInside, if_pos hm, toList_linkText, ← List.append_nil (cdataChars _), htext] at hname
  cases hname

/-- The writer neither opens nor closes a macro for an event. -/
structure Elsewhere (style : Style) (tags : List Tag) (s : State) (e : Event)
    (result : State × String) : Prop where
  attachments : result.1.attachments = s.attachments
  piece : StartsNoMacro style.attachmentsFolder tags e result.2

/-- An image or link that is rewritten opens the macro of its kind for the attachment it
names. -/
theorem Follows.step_opens (context : Context) {r : Reference} {kind : ReferenceKind}
    (h : Follows style p s) (hstep : p.step (.opening tag) = some q)
    (hk : referenceKind tag = some kind)
    (hr : rewritten style.attachmentsFolder p.tags tag = some r) :
    (Storage.step style context s (.opening tag)).1.attachments = r :: s.attachments ∧
      (Storage.step style context s (.opening tag)).2 =
        attachmentStart kind r.filename (ownerTitle context r.directory) := by
  obtain ⟨hm, hnamed⟩ := rewritten_eq_some_iff.1 hr
  obtain ⟨content, hin, -⟩ := Position.step_opening hstep
  -- where code is collected nothing may be opened
  have hcollecting : collecting style p.opened = false := by
    refine not_collecting_of_ne h.linked fun hliteral => ?_
    rw [hliteral] at hin
    cases hin
  rw [step_opening_attachment context (h.code_eq_none hcollecting) h.frames hm hk hnamed]
  exact ⟨rfl, rfl⟩

/-- What was rewritten closes its macro. -/
theorem Follows.step_closes (context : Context) {outer : List Tag} {r : Reference}
    {kind : ReferenceKind} (h : Follows style p s) (htags : p.tags = tag :: outer)
    (hk : referenceKind tag = some kind)
    (hr : rewritten style.attachmentsFolder outer tag = some r) :
    (Storage.step style context s (.closing tag.closing)).1.attachments = s.attachments ∧
      (Storage.step style context s (.closing tag.closing)).2 = attachmentEnd kind := by
  obtain ⟨hm, hnamed⟩ := rewritten_eq_some_iff.1 hr
  have hattached : (tagMode style.attachmentsFolder tag).macroBody = some kind := by
    rw [macroBody_tagMode, hnamed]
    exact hk
  have hcollecting : collecting style p.opened = false := by
    by_contra hcollecting
    obtain ⟨info, rest, hopened, -⟩ := literal_of_collecting h.linked (by simpa using hcollecting)
    rw [Position.tags, hopened] at htags
    obtain ⟨rfl, -⟩ := List.cons.inj htags
    cases hk
  rw [step_closing_attachment context (h.code_eq_none hcollecting) (htags ▸ h.frames) hm hattached]
  exact ⟨rfl, rfl⟩

/-- While the text of a code macro is collected, nothing but the macro is written. -/
theorem Follows.elsewhere_collecting (context : Context) (h : Follows style p s)
    (hc : collecting style p.opened = true) (hstep : p.step e = some q) :
    Elsewhere style p.tags s e (Storage.step style context s e) := by
  obtain ⟨hm, -, -⟩ := h.step_collecting context hc hstep
  obtain ⟨code, hcode⟩ : ∃ code, s.code = some code :=
    Option.isSome_iff_exists.1 (h.code.trans hc)
  have hrun : Storage.step style context s e = codeStep s code e := by
    simp only [Storage.step, hcode]
  have hplain : (modeInside style.attachmentsFolder p.tags).macroBody = none := by rw [hm]; rfl
  rw [hrun]
  cases e with
  | closing c =>
      cases c with
      | codeBlock =>
          exact ⟨rfl, startsNoMacro_of_startsOnly hplain (startsOnly_codeMacro _ _)⟩
      | _ => exact ⟨rfl, startsNoMacro_empty _ _ _⟩
  | _ => exact ⟨rfl, startsNoMacro_empty _ _ _⟩

/-- An opening in a macro is dropped. -/
theorem Follows.elsewhere_opening (context : Context) (h : Follows style p s) (hc : s.code = none)
    (hstep : p.step (.opening tag) = some q)
    (hr : rewritten style.attachmentsFolder p.tags tag = none) :
    Elsewhere style p.tags s (.opening tag) (Storage.step style context s (.opening tag)) := by
  obtain ⟨content, hin, -⟩ := Position.step_opening hstep
  cases hkind : (modeInside style.attachmentsFolder p.tags).macroBody with
  | some kind =>
      obtain ⟨hmarkup, -⟩ := macro_ne hkind
      have htag : tag.isInline = true := by
        rw [inline_of_modeInside h.linked hmarkup] at hin
        exact (Content.inside_inline hin).1
      have hbody : s.macroBody.isSome := by rw [macroBody_of_frames h.frames, hkind]; rfl
      have hdropped : Storage.step style context (s.suppressing []) (.opening tag) =
          (s.suppressing [tag], "") := step_opening_inMacro hc hbody htag
      rw [suppressing_nil] at hdropped
      rw [hdropped]
      exact ⟨rfl, startsNoMacro_empty _ _ _⟩
  | none =>
      by_cases hquote : tag = .blockQuote
      · subst hquote
        rw [step_opening_quote style context hc]
        exact ⟨rfl, startsNoMacro_of_startsOnly hkind (startsOnly_tipStart _)⟩
      · by_cases hcode : ∃ info, tag = .codeBlock info ∧ languageOf info ≠ style.diagramLanguage
        · obtain ⟨info, rfl, hlanguage⟩ := hcode
          rw [step_opening_code context hc hlanguage]
          exact ⟨rfl, startsNoMacro_empty _ _ _⟩
        · have hdelegable : Delegable style (modeInside style.attachmentsFolder p.tags)
              (.opening tag) :=
            delegable_opening hquote
              (fun info htag => not_not.1 fun hlanguage => hcode ⟨info, htag, hlanguage⟩)
              fun hm => macroBody_of_not_rewritten hm hr
          rw [step_opening_delegated hc h.frames hkind hdelegable]
          exact ⟨rfl, startsNoMacro_html style.hardLineBreak s.html hkind⟩

/-- A closing in a macro is dropped, and so is its frame. -/
theorem Follows.elsewhere_closing (context : Context) {outer : List Tag} (h : Follows style p s)
    (hc : s.code = none) (htags : p.tags = tag :: outer)
    (hr : rewritten style.attachmentsFolder outer tag = none) :
    Elsewhere style p.tags s (.closing tag.closing)
      (Storage.step style context s (.closing tag.closing)) := by
  cases hkind : (modeInside style.attachmentsFolder p.tags).macroBody with
  | some kind =>
      have hframes := h.frames
      rw [htags] at hkind hframes
      have hinside : modeInside style.attachmentsFolder outer ≠ .markup := by
        intro hm
        rw [modeInside_cons_of_markup hm, macroBody_of_not_rewritten hm hr] at hkind
        cases hkind
      have htag : tag.isInline = true := by
        obtain ⟨o, rest, hopened, rfl, rfl⟩ := List.map_eq_cons_iff.1 htags
        have hlinked := h.linked
        rw [hopened] at hlinked
        obtain ⟨⟨inner, hin, -⟩, hrest⟩ := hlinked
        rw [inline_of_modeInside hrest hinside] at hin
        exact (Content.inside_inline hin).1
      rw [modeInside_cons_of_ne hinside] at hkind
      rw [step_closing_suppressed context hc hframes (by rw [hkind]; rfl) htag]
      exact ⟨rfl, startsNoMacro_empty _ _ _⟩
  | none =>
      by_cases hquote : tag = .blockQuote
      · subst hquote
        have hclose : Storage.step style context s (.closing .blockQuote) = (s, tipEnd) := by
          simp only [Storage.step, hc, closeTag]
        rw [Tag.closing, hclose]
        exact ⟨rfl, startsNoMacro_of_startsOnly hkind startsOnly_tipEnd⟩
      · have hframes := h.frames
        rw [htags] at hframes
        rw [step_closing_delegated hc hframes (htags ▸ hkind) hquote]
        exact ⟨rfl, startsNoMacro_html style.hardLineBreak s.html hkind⟩

/-- A leaf in an attachment link leaves its text in the section. -/
theorem Follows.elsewhere_leaf (context : Context) (h : Follows style p s) (hc : s.code = none)
    (he : e.isLeaf = true) : Elsewhere style p.tags s e (Storage.step style context s e) := by
  cases hkind : (modeInside style.attachmentsFolder p.tags).macroBody with
  | some kind =>
      have hbody : s.macroBody = some kind := by rw [macroBody_of_frames h.frames, hkind]
      rw [step_leaf_inMacro hc hbody he]
      cases kind with
      | image => exact ⟨rfl, startsNoMacro_empty _ _ _⟩
      | link =>
          have hlink : modeInside style.attachmentsFolder p.tags = .linkBody := by
            cases hm : modeInside style.attachmentsFolder p.tags <;> rw [hm] at hkind <;>
              first | rfl | cases hkind
          exact ⟨rfl, startsNoMacro_linkText hlink⟩
  | none =>
      rw [step_leaf_delegated hc h.frames hkind he]
      exact ⟨rfl, startsNoMacro_html style.hardLineBreak s.html hkind⟩

theorem Follows.step_elsewhere (context : Context) (h : Follows style p s)
    (hstep : p.step e = some q) (he : handled style.attachmentsFolder p.tags e = none) :
    Elsewhere style p.tags s e (Storage.step style context s e) := by
  by_cases hcollecting : collecting style p.opened = true
  · exact h.elsewhere_collecting context hcollecting hstep
  · have hc := h.code_eq_none (by simpa using hcollecting)
    cases e with
    | opening tag => exact h.elsewhere_opening context hc hstep he
    | closing c =>
        obtain ⟨o, -, rfl, hopened, -⟩ := Position.step_closing hstep
        have htags : p.tags = o.tag :: q.tags := by rw [Position.tags, hopened]; rfl
        rw [htags] at he
        exact h.elsewhere_closing context hc htags he
    | _ => exact h.elsewhere_leaf context hc rfl

/-! ## Along a stream -/

/-- What an event adds to the attachments met is what it opens a macro for. -/
theorem Follows.attachments_step (context : Context) (h : Follows style p s)
    (hstep : p.step e = some q) :
    (Storage.step style context s e).1.attachments =
      (opened style.attachmentsFolder p.tags e).toList ++ s.attachments := by
  cases hhandled : handled style.attachmentsFolder p.tags e with
  | none =>
      have hopened : opened style.attachmentsFolder p.tags e = none := by
        cases e with
        | opening tag => exact hhandled
        | _ => rfl
      rw [(h.step_elsewhere context hstep hhandled).attachments, hopened]
      rfl
  | some r =>
      cases e with
      | opening tag =>
          have hr : rewritten style.attachmentsFolder p.tags tag = some r := hhandled
          obtain ⟨kind, hk⟩ := referenceKind_of_named (rewritten_eq_some_iff.1 hr).2
          rw [(h.step_opens context hstep hk hr).1, opened, hr]
          rfl
      | closing c =>
          obtain ⟨o, -, rfl, hopened, -⟩ := Position.step_closing hstep
          have htags : p.tags = o.tag :: q.tags := by rw [Position.tags, hopened]; rfl
          have hr : rewritten style.attachmentsFolder q.tags o.tag = some r := by
            rw [htags] at hhandled
            exact hhandled
          obtain ⟨kind, hk⟩ := referenceKind_of_named (rewritten_eq_some_iff.1 hr).2
          exact (h.step_closes context htags hk hr).1
      | _ => cases hhandled

theorem Follows.attachments_run (context : Context) {es : List Event} (h : Follows style p s)
    (hrun : p.run es = some q) :
    (Storage.run style context s es).1.attachments =
      (openedIn style.attachmentsFolder p.tags es).reverse ++ s.attachments := by
  induction es generalizing p s with
  | nil => rfl
  | cons e es ih =>
      rw [Position.run_cons] at hrun
      obtain ⟨mid, hstep, hrest⟩ := Option.bind_eq_some_iff.1 hrun
      have htags : openStep p.tags e = mid.tags :=
        openStep_of_nestStep (Position.nestStep_of_step hstep)
      rw [run_cons, ih (h.step context hstep) hrest, h.attachments_step context hstep, openedIn,
        htags, List.reverse_append, List.append_assoc]
      cases opened style.attachmentsFolder p.tags e <;> rfl

theorem length_run (style : Style) (context : Context) (s : State) (es : List Event) :
    (run style context s es).2.length = es.length := by
  induction es generalizing s with
  | nil => rfl
  | cons e es ih => rw [run_cons, List.length_cons, ih, List.length_cons]

/-- The text of an event in the middle of a stream. -/
theorem getElem?_run (style : Style) (context : Context) (s : State) (before after : List Event)
    (e : Event) :
    (run style context s (before ++ e :: after)).2[before.length]? =
      some (step style context (run style context s before).1 e).2 := by
  rw [run_append, run_cons, List.getElem?_append_right (by rw [length_run]), length_run,
    Nat.sub_self]
  rfl

/-- Between the events of a stream there is a position, and the writers follow it. -/
theorem follows_of_wellShaped (style : Style) (context : Context) {before after : List Event}
    (hshape : WellShaped (before ++ e :: after)) :
    ∃ p q, openTags before = p.tags ∧ p.step e = some q ∧ q.run after = some .top ∧
      Follows style p (run style context .start before).1 := by
  obtain ⟨p, hbefore, hafter, htags⟩ := hshape.split
  rw [Position.run_cons] at hafter
  obtain ⟨q, hstep, hrest⟩ := Option.bind_eq_some_iff.1 hafter
  exact ⟨p, q, htags, hstep, hrest, (follows_start style).run context hbefore⟩

theorem attachments_write (style : Style) (context : Context) {es : List Event}
    (hshape : WellShaped es) :
    (write style context es).attachments = openedIn style.attachmentsFolder [] es := by
  have hmet : (run style context .start es).1.attachments =
      (openedIn style.attachmentsFolder [] es).reverse ++ [] :=
    (follows_start style).attachments_run context hshape
  show (run style context .start es).1.attachments.reverse = _
  rw [hmet, List.append_nil, List.reverse_reverse]

/-- **The attachments reported are the macros written.** In a stream with the shape of a
document, in every style and context, the attachments of the page are those that its images
and links are rewritten for, in order and with repetitions: the ones that name an attachment,
stand inside no image or link that is rewritten, and inside no image left to the XHTML writer.
Each is opened by the macro of its kind, with its file name and the page that owns it, and is
closed by the end of that macro at its own closing. No other event starts a macro. -/
theorem attachments_eq_rewritten (style : Style) (context : Context) (es : List Event)
    (hshape : WellShaped es) :
    let folder := style.attachmentsFolder
    let pieces := (run style context .start es).2
    (write style context es).attachments = openedIn folder [] es ∧
      (∀ before tag after r, es = before ++ .opening tag :: after →
        rewritten folder (openTags before) tag = some r →
        ∃ kind inside behind, referenceKind tag = some kind ∧
          after = inside ++ .closing tag.closing :: behind ∧ Balanced inside ∧
          pieces[before.length]? =
            some (attachmentStart kind r.filename (ownerTitle context r.directory)) ∧
          pieces[(before ++ .opening tag :: inside).length]? = some (attachmentEnd kind)) ∧
      ∀ before e after, es = before ++ e :: after → handled folder (openTags before) e = none →
        ∃ piece, pieces[before.length]? = some piece ∧
          StartsNoMacro folder (openTags before) e piece := by
  intro folder pieces
  refine ⟨attachments_write style context hshape, ?_, ?_⟩
  · intro before tag after r hes hr
    subst hes
    obtain ⟨p, q, htags, hstep, hrest, hfollows⟩ := follows_of_wellShaped style context hshape
    rw [htags] at hr
    obtain ⟨kind, hk⟩ := referenceKind_of_named (rewritten_eq_some_iff.1 hr).2
    have hnest : nest ([] ++ tag :: p.tags) after = some [] := by
      have hq := Position.nest_of_run hrest
      obtain ⟨content, -, rfl⟩ := Position.step_opening hstep
      exact hq
    obtain ⟨inside, behind, rfl, hinside⟩ := exists_closing hnest
    refine ⟨kind, inside, behind, hk, rfl, balanced_iff_nest.2 hinside, ?_, ?_⟩
    · rw [← (hfollows.step_opens context hstep hk hr).2]
      exact getElem?_run style context .start before _ _
    · -- the closing finds open what was open in front of the opening, and the tag itself
      have hsplit : before ++ .opening tag :: (inside ++ .closing tag.closing :: behind) =
          (before ++ .opening tag :: inside) ++ .closing tag.closing :: behind := by simp
      rw [hsplit] at hshape
      obtain ⟨p', q', htags', -, -, hfollows'⟩ := follows_of_wellShaped style context hshape
      have hopen : p'.tags = tag :: p.tags := by
        rw [← htags', openTags_append, htags]
        exact openTagsFrom_of_nest (nest_frame (tag :: p.tags) hinside)
      rw [← (hfollows'.step_closes context hopen hk hr).2]
      show (run style context .start _).2[_]? = _
      rw [hsplit]
      exact getElem?_run style context .start _ _ _
  · intro before e after hes hhandled
    subst hes
    obtain ⟨p, q, htags, hstep, -, hfollows⟩ := follows_of_wellShaped style context hshape
    rw [htags] at hhandled ⊢
    exact ⟨_, getElem?_run style context .start before after e,
      (hfollows.step_elsewhere context hstep hhandled).piece⟩

/-- An image in a link and a link in an image are not reported, be the one around them
rewritten or not; the same image behind them is, each time. -/
theorem attachments_eq_rewritten_nested :
    let es := enclose .paragraph
      (enclose (.link .inline "notes.txt" "") (enclose (.image "in.png" "") [.text "in"]) ++
        enclose (.image "https://example.com/o.png" "")
          (enclose (.link .inline "in.pdf" "") [.inlineHtml "<ac:image>"]) ++
        enclose (.link .email "a@example.com" "") (enclose (.image "a.png" "") []) ++
        enclose (.image "a.png" "") [])
    (write {} {} es).attachments =
      [⟨"notes.txt", "notes.txt", .current⟩, ⟨"a.png", "a.png", .current⟩,
        ⟨"a.png", "a.png", .current⟩] := by
  intro es
  obtain ⟨hattachments, -, -⟩ := attachments_eq_rewritten {} {} es (by decide)
  rw [hattachments]
  decide +kernel

end WikiPress.Storage
