import WikiPress.Proofs.Storage.Attachments

/-!
# WikiPress.Proofs.Storage.LineBreaks

What hard line breaks do to a page: they make hard breaks of its soft breaks.

Design points:

* The setting is read in one place, for a soft break the XHTML writer gets outside of images. All
  other events are taken alike with and without it (`step_breaking_of_ne`).
* A soft break that the setting does not reach is the same as a hard one in an attachment macro,
  and differs from it in the alternative text of an image. Which of them it is in is said by the
  tags around it (`inPlainImage`, `spares`), with the same rules as for attachments.
* The two runs therefore go through the same states, event by event, and the pages are compared
  piece by piece.
-/

namespace WikiPress.Storage

open WikiPress.Markup

/-! ## The soft breaks of a stream -/

/-- Whether an image that is left to the XHTML writer is among some open tags, innermost first. -/
def inPlainImage (folder : String) : List Tag → Bool
  | [] => false
  | tag :: outer =>
      inPlainImage folder outer ||
        tag.isImage && spares folder outer && (named folder tag).isNone

/-- An event with a soft break replaced by a hard one, but for images left to the XHTML writer. -/
def harden (folder : String) (tags : List Tag) (e : Event) : Event :=
  if e = .softBreak ∧ inPlainImage folder tags = false then .hardBreak else e

/-- A stream inside some open tags with its soft breaks replaced by hard ones, but for images left
to the XHTML writer. -/
def hardened (folder : String) : List Tag → List Event → List Event
  | _, [] => []
  | tags, e :: es => harden folder tags e :: hardened folder (openStep tags e) es

/-- A style with or without hard line breaks. -/
def Style.breaking (style : Style) (hardLineBreak : Bool) : Style :=
  { style with hardLineBreak }

variable {folder : String} {tag : Tag} {tags : List Tag}

theorem tagMode_eq_alternative_iff :
    tagMode folder tag = .alternative ↔ tag.isImage = true ∧ named folder tag = none := by
  cases tag with
  | image destination title =>
      cases hr : Attachment.reference folder destination <;>
      simp [tagMode, named, hr, Tag.isImage]
  | link kind destination title =>
      by_cases hr : kind ≠ .email ∧ (Attachment.reference folder destination).isSome <;>
      simp [tagMode, hr, Tag.isImage]
  | _ => simp [tagMode, Tag.isImage]

theorem inPlainImage_iff :
    inPlainImage folder tags = true ↔ modeInside folder tags = .alternative := by
  induction tags with
  | nil => simp [inPlainImage, modeInside]
  | cons tag outer ih =>
      by_cases hm : modeInside folder outer = .markup
      · have houter : inPlainImage folder outer = false := by
          simpa [hm] using ih
        rw [modeInside_cons_of_markup hm, tagMode_eq_alternative_iff]
        simp [inPlainImage, houter, spares_iff.2 hm]
      · have hspares : spares folder outer = false := by simpa using spares_iff.not.2 hm
        rw [modeInside_cons_of_ne hm, ← ih]
        simp [inPlainImage, hspares]

/-! ## One event with and without hard line breaks -/

variable {style : Style} {context : Context} {p q : Position} {s : State} {e : Event}

/-- Where the writers are does not hang on line breaks. -/
theorem follows_breaking_iff {hardLineBreak : Bool} :
    Follows (style.breaking hardLineBreak) p s ↔ Follows style p s :=
  ⟨fun h => ⟨h.linked, h.frames, h.code, h.image, h.head⟩,
    fun h => ⟨h.linked, h.frames, h.code, h.image, h.head⟩⟩

theorem Follows.next_breaking (context : Context) (h : Follows style p s)
    (hstep : p.step e = some q) (hardLineBreak : Bool) :
    Follows style q (Storage.step (style.breaking hardLineBreak) context s e).1 :=
  follows_breaking_iff.1 ((follows_breaking_iff.2 h).step context hstep)

/-- The setting is read for soft breaks only. -/
theorem step_breaking_of_ne (style : Style) (context : Context) (s : State) (he : e ≠ .softBreak) :
    step (style.breaking true) context s e = step (style.breaking false) context s e := by
  cases e with
  | softBreak => exact absurd rfl he
  | opening tag => cases tag <;> rfl
  | closing c => cases c <;> rfl
  | _ => rfl

/-- Code is text only, so no break stands in it. -/
theorem not_literal_of_softBreak (hstep : p.step .softBreak = some q) : p.content ≠ .literal := by
  obtain ⟨hadmits, -⟩ := Position.step_leaf rfl hstep
  intro hliteral
  rw [hliteral] at hadmits
  cases hadmits

theorem Follows.code_eq_none_of_softBreak (h : Follows style p s)
    (hstep : p.step .softBreak = some q) : s.code = none :=
  h.code_eq_none (not_collecting_of_ne h.linked (not_literal_of_softBreak hstep))

/-- No container stands in code. -/
theorem literal_of_mem {content : Content} {opened : List Opened} {info : Option String}
    (hlinked : Linked content opened) (hmem : .codeBlock info ∈ opened.map Opened.tag) :
    content = .literal := by
  induction opened generalizing content with
  | nil => cases hmem
  | cons o rest ih =>
      rcases List.mem_cons.1 hmem with htag | hmem
      · obtain ⟨tag, outer⟩ := o
        obtain rfl : .codeBlock info = tag := htag
        exact literal_of_codeBlock hlinked
      · obtain ⟨⟨inner, hin, -⟩, hrest⟩ := hlinked
        rw [ih hrest hmem] at hin
        cases hin

/-- Outside of attachment macros a leaf is left to the XHTML writer. -/
theorem Follows.leaf_breaking (context : Context) (h : Follows style p s) (hc : s.code = none)
    (hm : (modeInside style.attachmentsFolder p.tags).macroBody = none) (he : e.isLeaf = true)
    (hardLineBreak : Bool) :
    Storage.step (style.breaking hardLineBreak) context s e =
      delegate (style.breaking hardLineBreak) s e :=
  step_leaf_delegated hc h.frames hm he

/-- In markup a soft break is what the setting says. -/
theorem Follows.softBreak_in_markup (context : Context) (h : Follows style p s)
    (hc : s.code = none) (hm : modeInside style.attachmentsFolder p.tags = .markup)
    (hardLineBreak : Bool) :
    Storage.step (style.breaking hardLineBreak) context s .softBreak =
      (s, if hardLineBreak then "<br />" else "\n") := by
  have himage := h.no_image (by rw [hm]; simp)
  rw [h.leaf_breaking context hc (by rw [hm]; rfl) rfl]
  simp only [delegate, Xhtml.step, himage]
  rfl

theorem Follows.hardBreak_in_markup (context : Context) (h : Follows style p s)
    (hc : s.code = none) (hm : modeInside style.attachmentsFolder p.tags = .markup)
    (hardLineBreak : Bool) :
    Storage.step (style.breaking hardLineBreak) context s .hardBreak = (s, "<br />") := by
  rw [h.leaf_breaking context hc (by rw [hm]; rfl) rfl]
  rfl

/-- In an alternative text a soft break is a space. -/
theorem Follows.softBreak_in_alternative (context : Context) (h : Follows style p s)
    (hc : s.code = none) (hm : modeInside style.attachmentsFolder p.tags = .alternative) :
    Storage.step (style.breaking true) context s .softBreak =
      Storage.step (style.breaking false) context s .softBreak := by
  obtain ⟨i, himage, -⟩ := h.pendingImage hm
  have hplain : (modeInside style.attachmentsFolder p.tags).macroBody = none := by rw [hm]; rfl
  rw [h.leaf_breaking context hc hplain rfl, h.leaf_breaking context hc hplain rfl]
  simp only [delegate, Xhtml.step, himage]

/-- In an attachment macro both breaks are a new line of a link's text and nothing in an image. -/
theorem Follows.break_inMacro (context : Context) {kind : ReferenceKind} (h : Follows style p s)
    (hc : s.code = none) (hm : (modeInside style.attachmentsFolder p.tags).macroBody = some kind)
    (he : e = .softBreak ∨ e = .hardBreak) (hardLineBreak : Bool) :
    Storage.step (style.breaking hardLineBreak) context s e =
      (s, if kind = .link then "\n" else "") := by
  have hbody : s.macroBody = some kind := by rw [macroBody_of_frames h.frames, hm]
  rcases he with rfl | rfl
  · exact step_leaf_inMacro hc hbody rfl
  · exact step_leaf_inMacro hc hbody rfl

/-- The setting changes what is written for an event only if it is a soft break in markup. -/
theorem Follows.step_breaking (context : Context) (h : Follows style p s)
    (hstep : p.step e = some q)
    (he : e ≠ .softBreak ∨ modeInside style.attachmentsFolder p.tags ≠ .markup) :
    Storage.step (style.breaking true) context s e =
      Storage.step (style.breaking false) context s e := by
  by_cases hsoft : e = .softBreak
  · subst hsoft
    have hc := h.code_eq_none_of_softBreak hstep
    have hm := he.resolve_left (by simp)
    cases hkind : (modeInside style.attachmentsFolder p.tags).macroBody with
    | some kind =>
        rw [h.break_inMacro context hc hkind (Or.inl rfl),
          h.break_inMacro context hc hkind (Or.inl rfl)]
    | none =>
        exact h.softBreak_in_alternative context hc ((markup_or_alternative hkind).resolve_left hm)
  · exact step_breaking_of_ne style context s hsoft

/-- The writers come to the same state with and without hard line breaks. -/
theorem Follows.state_breaking (context : Context) (h : Follows style p s)
    (hstep : p.step e = some q) :
    (Storage.step (style.breaking true) context s e).1 =
      (Storage.step (style.breaking false) context s e).1 := by
  by_cases he : e ≠ .softBreak ∨ modeInside style.attachmentsFolder p.tags ≠ .markup
  · rw [h.step_breaking context hstep he]
  · obtain ⟨rfl, hm⟩ : e = .softBreak ∧ modeInside style.attachmentsFolder p.tags = .markup := by
      simpa using he
    have hc := h.code_eq_none_of_softBreak hstep
    rw [h.softBreak_in_markup context hc hm, h.softBreak_in_markup context hc hm]

/-- With hard line breaks an event is what the hardened one is without. -/
theorem Follows.step_harden (context : Context) (h : Follows style p s)
    (hstep : p.step e = some q) :
    Storage.step (style.breaking true) context s e =
      Storage.step (style.breaking false) context s
        (harden style.attachmentsFolder p.tags e) := by
  by_cases hsoft : e = .softBreak
  · subst hsoft
    have hc := h.code_eq_none_of_softBreak hstep
    by_cases hplain : modeInside style.attachmentsFolder p.tags = .alternative
    · rw [harden, if_neg (by simp [inPlainImage_iff.2 hplain])]
      exact h.softBreak_in_alternative context hc hplain
    · have hreached : inPlainImage style.attachmentsFolder p.tags = false := by
        simpa using inPlainImage_iff.not.2 hplain
      rw [harden, if_pos ⟨rfl, hreached⟩]
      cases hkind : (modeInside style.attachmentsFolder p.tags).macroBody with
      | some kind =>
          rw [h.break_inMacro context hc hkind (Or.inl rfl),
            h.break_inMacro context hc hkind (Or.inr rfl)]
      | none =>
          have hm := (markup_or_alternative hkind).resolve_right hplain
          rw [h.softBreak_in_markup context hc hm, h.hardBreak_in_markup context hc hm]
          rfl
  · rw [harden, if_neg fun hboth => hsoft hboth.1]
    exact step_breaking_of_ne style context s hsoft

/-! ## Along a stream -/

/-- With hard line breaks a stream is written as the hardened one is without. -/
theorem Follows.run_hardened (context : Context) {es : List Event} (h : Follows style p s)
    (hrun : p.run es = some q) :
    Storage.run (style.breaking true) context s es =
      Storage.run (style.breaking false) context s
        (hardened style.attachmentsFolder p.tags es) := by
  induction es generalizing p s with
  | nil => rfl
  | cons e es ih =>
      rw [Position.run_cons] at hrun
      obtain ⟨mid, hstep, hrest⟩ := Option.bind_eq_some_iff.1 hrun
      have htags : openStep p.tags e = mid.tags :=
        openStep_of_nestStep (Position.nestStep_of_step hstep)
      have hnext := h.next_breaking context hstep true
      rw [hardened, run_cons, run_cons, ← h.step_harden context hstep, htags, ih hnext hrest]

/-- The writers come to the same state behind a stream with and without hard line breaks. -/
theorem Follows.run_state_breaking (context : Context) {es : List Event} (h : Follows style p s)
    (hrun : p.run es = some q) :
    (Storage.run (style.breaking true) context s es).1 =
      (Storage.run (style.breaking false) context s es).1 := by
  induction es generalizing p s with
  | nil => rfl
  | cons e es ih =>
      rw [Position.run_cons] at hrun
      obtain ⟨mid, hstep, hrest⟩ := Option.bind_eq_some_iff.1 hrun
      have hnext := h.next_breaking context hstep true
      rw [run_cons, run_cons, ← h.state_breaking context hstep, ih hnext hrest]

/-- Between the events of a stream the writers are in one state with and without hard line breaks,
and the next event is taken in it. -/
theorem follows_of_breaking (style : Style) (context : Context) {before after : List Event}
    (hshape : WellShaped (before ++ e :: after)) :
    ∃ p q s, openTags before = p.tags ∧ p.step e = some q ∧ Follows style p s ∧
      ∀ hardLineBreak,
        let pieces := (run (style.breaking hardLineBreak) context .start (before ++ e :: after)).2
        pieces[before.length]? = some (step (style.breaking hardLineBreak) context s e).2 := by
  obtain ⟨p, hbefore, hafter, htags⟩ := hshape.split
  rw [Position.run_cons] at hafter
  obtain ⟨q, hstep, -⟩ := Option.bind_eq_some_iff.1 hafter
  have hfollows : Follows style p (run (style.breaking false) context .start before).1 :=
    follows_breaking_iff.1 ((follows_start _).run context hbefore)
  refine ⟨p, q, _, htags, hstep, hfollows, fun hardLineBreak => ?_⟩
  refine (getElem?_run _ context .start before after e).trans ?_
  cases hardLineBreak with
  | false => rfl
  | true => rw [(follows_start style).run_state_breaking context hbefore]

/-- **Hard line breaks rewrite soft breaks.** In every style and context, a stream with the shape
of a document gives with hard line breaks the page that it gives without them once each soft break
outside of images left to the XHTML writer is a hard one. Event by event, the two pages of the same
stream differ for each soft break outside of rewritten images and links and of images left to the
XHTML writer, none of which stands in code: it is a `<br />` in one and a new line in the other.
For every other event, so for all in attachment links and images, alternative texts and code, they
have the same text. -/
theorem write_hardLineBreak (style : Style) (context : Context) (es : List Event)
    (hshape : WellShaped es) :
    let folder := style.attachmentsFolder
    let hard := (run (style.breaking true) context .start es).2
    let soft := (run (style.breaking false) context .start es).2
    write (style.breaking true) context es =
        write (style.breaking false) context (hardened folder [] es) ∧
      (∀ before after, es = before ++ .softBreak :: after → spares folder (openTags before) = true →
        hard[before.length]? = some "<br />" ∧ soft[before.length]? = some "\n" ∧
          ∀ info, .codeBlock info ∉ openTags before) ∧
      ∀ before e after, es = before ++ e :: after →
        (e ≠ .softBreak ∨ spares folder (openTags before) = false ∨
          ∃ info, .codeBlock info ∈ openTags before) →
        hard[before.length]? = soft[before.length]? := by
  intro folder hard soft
  refine ⟨?_, ?_, ?_⟩
  · rw [write, (follows_start style).run_hardened context hshape]
    rfl
  · intro before after hes hspares
    subst hes
    obtain ⟨p, q, s, htags, hstep, hfollows, hpieces⟩ := follows_of_breaking style context hshape
    rw [htags] at hspares ⊢
    have hc := hfollows.code_eq_none_of_softBreak hstep
    have hbreak := hfollows.softBreak_in_markup context hc (spares_iff.1 hspares)
    refine ⟨?_, ?_, fun info hmem => ?_⟩
    · exact (hpieces true).trans (by rw [hbreak]; rfl)
    · exact (hpieces false).trans (by rw [hbreak]; rfl)
    · exact not_literal_of_softBreak hstep (literal_of_mem hfollows.linked hmem)
  · intro before e after hes he
    subst hes
    obtain ⟨p, q, s, htags, hstep, hfollows, hpieces⟩ := follows_of_breaking style context hshape
    rw [htags] at he
    have hkept : e ≠ .softBreak ∨ modeInside folder p.tags ≠ .markup := by
      rcases he with he | he | ⟨info, hmem⟩
      · exact Or.inl he
      · exact Or.inr (spares_iff.not.1 (by simp [he]))
      · refine Or.inl ?_
        rintro rfl
        exact not_literal_of_softBreak hstep (literal_of_mem hfollows.linked hmem)
    refine (hpieces true).trans (Eq.trans ?_ (hpieces false).symm)
    rw [hfollows.step_breaking context hstep hkept]

/-- A soft break in a link of the page's text is a `<br />` with hard line breaks; those in an
attachment link and in an alternative text stay as they are. -/
theorem write_hardLineBreak_places :
    let es := enclose .paragraph
      (enclose (.link .inline "https://example.com/" "") [.text "a", .softBreak, .text "b"] ++
        enclose (.link .inline "notes.txt" "") [.text "c", .softBreak, .text "d"] ++
        enclose (.image "https://example.com/o.png" "") [.text "e", .softBreak, .text "f"])
    let style : Style := {}
    hardened style.attachmentsFolder [] es = enclose .paragraph
        (enclose (.link .inline "https://example.com/" "") [.text "a", .hardBreak, .text "b"] ++
          enclose (.link .inline "notes.txt" "") [.text "c", .hardBreak, .text "d"] ++
          enclose (.image "https://example.com/o.png" "") [.text "e", .softBreak, .text "f"]) ∧
      write (style.breaking true) {} es =
        write (style.breaking false) {} (hardened style.attachmentsFolder [] es) := by
  intro es style
  exact ⟨by decide +kernel, (write_hardLineBreak style {} es (by decide)).1⟩

end WikiPress.Storage
