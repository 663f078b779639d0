import WikiPress.Proofs.Markup.Nesting
import WikiPress.Storage.Writer

/-!
# WikiPress.Proofs.Storage.Frames

How the storage writer treats an event, by the containers that are open around it.

Design points:

* `modeInside` reads off the open tags what becomes of the events inside them. Once an
  image or link decides, nothing inside it changes the mode, which is why at most one
  attachment macro is ever open.
* `framesInside` is the frames the writer holds inside some open tags. While the two
  agree, the writer's own tests come down to the mode (`macroBody_of_frames`,
  `inDelegatedImage_of_frames`).
* There is one lemma for each thing the writer does with an event: it leaves it to the
  XHTML writer, opens or closes an attachment macro, or drops its markup inside one. There
  it only keeps a frame for each image or link, so its state is given by the open tags
  (`State.suppressing`).
-/

namespace WikiPress.Storage

open WikiPress.Markup
open WikiPress.Attachment (Reference reference)

/-- What becomes of the events inside some open containers. -/
inductive Mode
  /-- They are written as markup. -/
  | markup
  /-- They are the alternative text of an image left to the XHTML writer. -/
  | alternative
  /-- They are the plain text of an attachment link. -/
  | linkBody
  /-- They are the dropped text of an attached image. -/
  | imageBody
  deriving DecidableEq, Repr

/-- The kind of the attachment macro that is open in a mode. -/
def Mode.macroBody : Mode → Option ReferenceKind
  | .linkBody => some .link
  | .imageBody => some .image
  | _ => none

/-- The mode inside a tag that stands in markup. -/
def tagMode (folder : String) : Tag → Mode
  | .image destination _ =>
      if (reference folder destination).isSome then .imageBody else .alternative
  | .link kind destination _ =>
      if kind ≠ .email ∧ (reference folder destination).isSome then .linkBody else .markup
  | _ => .markup

/-- The mode inside some open tags, innermost first. -/
def modeInside (folder : String) : List Tag → Mode
  | [] => .markup
  | tag :: outer =>
      match modeInside folder outer with
      | .markup => tagMode folder tag
      | mode => mode

/-- The kind of an image or a link. -/
def referenceKind : Tag → Option ReferenceKind
  | .image .. => some .image
  | .link .. => some .link
  | _ => none

/-- The attachment an image or link names by its destination. Email links name none. -/
def named (folder : String) : Tag → Option Reference
  | .image destination _ => reference folder destination
  | .link kind destination _ => if kind = .email then none else reference folder destination
  | _ => none

/-- The frame of an image or link that was opened in a mode. -/
def frameOf (folder : String) (mode : Mode) (tag : Tag) (kind : ReferenceKind) : Frame :=
  match mode with
  | .markup => if (tagMode folder tag).macroBody.isSome then .attachment kind else .delegated kind
  | .alternative => .delegated kind
  | .linkBody | .imageBody => .suppressed

/-- The frames of some open tags. -/
def framesInside (folder : String) : List Tag → List Frame
  | [] => []
  | tag :: outer =>
      match referenceKind tag with
      | some kind => frameOf folder (modeInside folder outer) tag kind :: framesInside folder outer
      | none => framesInside folder outer

/-- The language a code block names. -/
def languageOf (info : Option String) : String := (info.map Text.firstWord).getD ""

variable {folder : String}

theorem tagMode_of_not_reference {tag : Tag} (h : referenceKind tag = none) :
    tagMode folder tag = .markup := by
  cases tag <;> first | rfl | cases h

theorem framesInside_cons_of_kind {tag : Tag} {outer : List Tag} {kind : ReferenceKind}
    (h : referenceKind tag = some kind) :
    framesInside folder (tag :: outer) =
      frameOf folder (modeInside folder outer) tag kind :: framesInside folder outer := by
  simp [framesInside, h]

theorem framesInside_cons_of_none {tag : Tag} {outer : List Tag}
    (h : referenceKind tag = none) :
    framesInside folder (tag :: outer) = framesInside folder outer := by
  simp [framesInside, h]

theorem modeInside_cons_of_markup {tag : Tag} {outer : List Tag}
    (h : modeInside folder outer = .markup) :
    modeInside folder (tag :: outer) = tagMode folder tag := by
  simp [modeInside, h]

theorem modeInside_cons_of_ne {tag : Tag} {outer : List Tag}
    (h : modeInside folder outer ≠ .markup) :
    modeInside folder (tag :: outer) = modeInside folder outer := by
  cases hm : modeInside folder outer <;> simp_all [modeInside]

/-- An image or link in markup opens an attachment macro of its kind, or it is left to
the XHTML writer. -/
theorem tagMode_of_reference (folder : String) {tag : Tag} {kind : ReferenceKind}
    (h : referenceKind tag = some kind) :
    (tagMode folder tag).macroBody = some kind ∨
      tagMode folder tag = (if kind = .image then .alternative else .markup) := by
  cases tag with
  | image destination title =>
      cases h
      by_cases hr : (reference folder destination).isSome
      · exact Or.inl (by simp [tagMode, hr, Mode.macroBody])
      · exact Or.inr (by simp [tagMode, hr])
  | link k destination title =>
      cases h
      by_cases hr : k ≠ .email ∧ (reference folder destination).isSome
      · exact Or.inl (by simp [tagMode, hr, Mode.macroBody])
      · exact Or.inr (by simp [tagMode, hr])
  | _ => cases h

/-- Where events are written as markup, no image is open. -/
theorem not_image_of_markup {tags : List Tag}
    (h : modeInside folder tags = .markup) : ∀ tag ∈ tags, tag.isImage = false := by
  induction tags with
  | nil => simp
  | cons tag outer ih =>
      by_cases hm : modeInside folder outer = .markup
      · rw [modeInside_cons_of_markup hm] at h
        have htag : tag.isImage = false := by
          cases tag with
          | image destination title =>
              by_cases hr : (reference folder destination).isSome <;> simp [tagMode, hr] at h
          | _ => rfl
        intro t ht
        rcases List.mem_cons.1 ht with rfl | ht
        · exact htag
        · exact ih hm t ht
      · rw [modeInside_cons_of_ne hm] at h
        exact absurd h hm

/-! ## The writer's tests -/

private theorem findSome_framesInside (tags : List Tag) :
    ((framesInside folder tags).findSome? fun
      | .attachment kind => some kind
      | _ => none) = (modeInside folder tags).macroBody := by
  induction tags with
  | nil => rfl
  | cons tag outer ih =>
      by_cases hm : modeInside folder outer = .markup
      · rw [modeInside_cons_of_markup hm]
        cases hk : referenceKind tag with
        | none =>
            rw [framesInside_cons_of_none hk, ih, hm, tagMode_of_not_reference hk]
        | some kind =>
            rw [framesInside_cons_of_kind hk, hm]
            rw [hm] at ih
            rcases tagMode_of_reference folder hk with h | h
            · simp [frameOf, h]
            · rw [h]
              cases kind <;> simp [frameOf, h, ih, Mode.macroBody]
      · rw [modeInside_cons_of_ne hm]
        cases hk : referenceKind tag with
        | none => rw [framesInside_cons_of_none hk, ih]
        | some kind =>
            rw [framesInside_cons_of_kind hk]
            cases h : modeInside folder outer <;> simp_all [frameOf]

/-- The macro the writer is inside of is the one of the mode. -/
theorem macroBody_of_frames {s : State} {tags : List Tag}
    (h : s.frames = framesInside folder tags) :
    s.macroBody = (modeInside folder tags).macroBody := by
  rw [State.macroBody, h]
  exact findSome_framesInside tags

private theorem contains_framesInside (tags : List Tag) :
    (framesInside folder tags).contains (.delegated .image) =
      decide (modeInside folder tags = .alternative) := by
  induction tags with
  | nil => rfl
  | cons tag outer ih =>
      by_cases hm : modeInside folder outer = .markup
      · rw [modeInside_cons_of_markup hm]
        cases hk : referenceKind tag with
        | none =>
            rw [framesInside_cons_of_none hk, ih, hm, tagMode_of_not_reference hk]
        | some kind =>
            rw [framesInside_cons_of_kind hk, List.contains_cons, ih, hm]
            rcases tagMode_of_reference folder hk with h | h
            · cases hmode : tagMode folder tag <;> simp_all [frameOf, Mode.macroBody]
            · cases kind <;> simp [frameOf, h, Mode.macroBody]
      · rw [modeInside_cons_of_ne hm]
        cases hk : referenceKind tag with
        | none => rw [framesInside_cons_of_none hk, ih]
        | some kind =>
            rw [framesInside_cons_of_kind hk, List.contains_cons, ih]
            cases h : modeInside folder outer <;> simp_all [frameOf]

/-- The writer is inside an image left to the XHTML writer in one mode only. -/
theorem inDelegatedImage_of_frames {s : State} {tags : List Tag}
    (h : s.frames = framesInside folder tags) :
    s.inDelegatedImage = decide (modeInside folder tags = .alternative) := by
  rw [State.inDelegatedImage, h]
  exact contains_framesInside tags

variable {style : Style} {context : Context} {s : State}

theorem step_leaf {e : Event} (hc : s.code = none) (he : e.isLeaf = true) :
    step style context s e = leaf style s e := by
  cases e with
  | opening tag => cases he
  | closing c => cases he
  | _ => simp only [step, hc]

/-! ## Events left to the XHTML writer -/

/-- Whether the writer leaves an event to the XHTML writer. -/
def Delegable (style : Style) (mode : Mode) : Event → Prop
  | .opening .blockQuote | .closing .blockQuote => False
  | .opening (.codeBlock info) => languageOf info = style.diagramLanguage
  | .opening tag => mode = .markup → (tagMode style.attachmentsFolder tag).macroBody = none
  | _ => True

/-- All containers are left to the XHTML writer but quotes, code in other languages than that
of diagrams, and what has a macro of its own. -/
theorem delegable_opening {mode : Mode} {tag : Tag} (hquote : tag ≠ .blockQuote)
    (hcode : ∀ info, tag = .codeBlock info → languageOf info = style.diagramLanguage)
    (hattached : mode = .markup → (tagMode style.attachmentsFolder tag).macroBody = none) :
    Delegable style mode (.opening tag) := by
  cases tag with
  | blockQuote => exact absurd rfl hquote
  | codeBlock info => exact hcode info rfl
  | _ => exact hattached

/-- An image or link in markup that names no attachment is left to the XHTML writer, and
so is every one inside an image that is. -/
theorem openReference_delegated {tags : List Tag} {tag : Tag}
    {kind : ReferenceKind} {destination : Option String}
    (hf : s.frames = framesInside style.attachmentsFolder tags)
    (hm : (modeInside style.attachmentsFolder tags).macroBody = none)
    (hk : referenceKind tag = some kind)
    (ht : modeInside style.attachmentsFolder tags = .markup →
      (tagMode style.attachmentsFolder tag).macroBody = none)
    (hd : modeInside style.attachmentsFolder tags = .markup →
      destination.bind (reference style.attachmentsFolder) = none) :
    openReference style context s tag kind destination =
      delegate style { s with frames := framesInside style.attachmentsFolder (tag :: tags) }
        (.opening tag) := by
  have hbody : s.macroBody = none := by rw [macroBody_of_frames hf, hm]
  -- an image around it keeps every reference from being looked up
  have href : s.referenceAt style destination = none := by
    rw [State.referenceAt, inDelegatedImage_of_frames hf]
    cases hmode : modeInside style.attachmentsFolder tags with
    | markup => simp [hd hmode]
    | alternative => simp
    | _ => rw [hmode] at hm; cases hm
  have hframe : frameOf style.attachmentsFolder (modeInside style.attachmentsFolder tags) tag kind
      = .delegated kind := by
    cases hmode : modeInside style.attachmentsFolder tags with
    | markup => simp [frameOf, ht hmode]
    | alternative => rfl
    | _ => rw [hmode] at hm; cases hm
  rw [openReference, hbody, href, framesInside_cons_of_kind hk, hframe, hf]
  rfl

/-- A tag that opens no attachment macro names no attachment the writer would look up. -/
theorem bind_reference_of_link {folder : String} {kind : LinkKind} {destination title : String}
    (h : (tagMode folder (.link kind destination title)).macroBody = none) :
    (if kind = .email then none else some destination).bind (reference folder) = none := by
  by_cases hk : kind = .email
  · simp [hk]
  · cases hr : reference folder destination with
    | none => simp [hk, hr]
    | some r => simp [tagMode, hk, hr, Mode.macroBody] at h

theorem bind_reference_of_image {folder : String} {destination title : String}
    (h : (tagMode folder (.image destination title)).macroBody = none) :
    (some destination).bind (reference folder) = none := by
  cases hr : reference folder destination with
  | none => simp [hr]
  | some r => simp [tagMode, hr, Mode.macroBody] at h

theorem step_opening_delegated {tags : List Tag} {tag : Tag}
    (hc : s.code = none) (hf : s.frames = framesInside style.attachmentsFolder tags)
    (hm : (modeInside style.attachmentsFolder tags).macroBody = none)
    (hd : Delegable style (modeInside style.attachmentsFolder tags) (.opening tag)) :
    step style context s (.opening tag) =
      delegate style { s with frames := framesInside style.attachmentsFolder (tag :: tags) }
        (.opening tag) := by
  have hbody : s.macroBody = none := by rw [macroBody_of_frames hf, hm]
  have hstep : step style context s (.opening tag) = openTag style context s tag := by
    rw [step, hc]
  rw [hstep]
  cases tag with
  | image destination title =>
      exact openReference_delegated hf hm rfl hd fun h => bind_reference_of_image (hd h)
  | link kind destination title =>
      exact openReference_delegated hf hm rfl hd fun h => bind_reference_of_link (hd h)
  | blockQuote => exact hd.elim
  | codeBlock info =>
      have hlanguage : (info.map Text.firstWord).getD "" = style.diagramLanguage := hd
      rw [framesInside_cons_of_none rfl, ← hf]
      simp only [openTag, hlanguage, if_true]
  | _ =>
      rw [framesInside_cons_of_none rfl, ← hf]
      simp [openTag, hbody]

theorem step_closing_delegated {tags : List Tag} {tag : Tag}
    (hc : s.code = none) (hf : s.frames = framesInside style.attachmentsFolder (tag :: tags))
    (hm : (modeInside style.attachmentsFolder (tag :: tags)).macroBody = none)
    (hq : tag ≠ .blockQuote) :
    step style context s (.closing tag.closing) =
      delegate style { s with frames := framesInside style.attachmentsFolder tags }
        (.closing tag.closing) := by
  have hbody : s.macroBody = none := by rw [macroBody_of_frames hf, hm]
  have hstep : step style context s (.closing tag.closing) = closeTag style s tag.closing := by
    rw [step, hc]
  rw [hstep]
  cases hk : referenceKind tag with
  | some kind =>
      -- the frame on top is the one the opening left
      have hframe : s.frames = .delegated kind :: framesInside style.attachmentsFolder tags := by
        rw [hf, framesInside_cons_of_kind hk]
        congr 1
        cases hmode : modeInside style.attachmentsFolder tags with
        | markup =>
            rw [modeInside_cons_of_markup hmode] at hm
            simp [frameOf, hm]
        | alternative => rfl
        | _ =>
            rw [modeInside_cons_of_ne (by rw [hmode]; decide), hmode] at hm
            cases hm
      cases tag <;> cases hk <;> simp [Tag.closing, closeTag, closeReference, hframe]
  | none =>
      rw [framesInside_cons_of_none hk] at hf
      rw [← hf]
      cases tag with
      | image destination title => cases hk
      | link kind destination title => cases hk
      | blockQuote => exact absurd rfl hq
      | _ => simp [Tag.closing, closeTag, hbody]

theorem step_leaf_delegated {tags : List Tag} {e : Event}
    (hc : s.code = none) (hf : s.frames = framesInside style.attachmentsFolder tags)
    (hm : (modeInside style.attachmentsFolder tags).macroBody = none)
    (he : e.isLeaf = true) : step style context s e = delegate style s e := by
  have hbody : s.macroBody = none := by rw [macroBody_of_frames hf, hm]
  rw [step_leaf hc he, leaf, hbody]

/-! ## Quotes and code -/

theorem step_opening_quote (style : Style) (context : Context) (hc : s.code = none) :
    step style context s (.opening .blockQuote) = (s, tipStart style.tipTitle) := by
  simp only [step, hc, openTag]

/-- Code that becomes a macro is put off until its end. -/
theorem step_opening_code (context : Context) {info : Option String} (hc : s.code = none)
    (hlanguage : languageOf info ≠ style.diagramLanguage) :
    step style context s (.opening (.codeBlock info)) =
      ({ s with code := some ⟨languageOf info, ""⟩ }, "") := by
  have hopen : step style context s (.opening (.codeBlock info)) =
      openTag style context s (.codeBlock info) := by
    simp only [step, hc]
  exact hopen.trans (if_neg hlanguage)

/-! ## Attachment macros -/

/-- The kind of a macro is the kind of its container. -/
theorem referenceKind_of_macroBody {tag : Tag} {kind : ReferenceKind}
    (h : (tagMode folder tag).macroBody = some kind) : referenceKind tag = some kind := by
  cases hk : referenceKind tag with
  | none =>
      rw [tagMode_of_not_reference hk] at h
      cases h
  | some kind' =>
      rcases tagMode_of_reference folder hk with hattached | hmode
      · exact hattached.symm.trans h
      · rw [hmode] at h
        cases kind' <;> cases h

/-- A container in markup becomes a macro exactly if it names an attachment, and then a macro
of its kind. -/
theorem macroBody_tagMode (folder : String) (tag : Tag) :
    (tagMode folder tag).macroBody =
      if (named folder tag).isSome then referenceKind tag else none := by
  cases tag with
  | image destination title =>
      cases hr : reference folder destination <;> simp [tagMode, named, hr, Mode.macroBody,
        referenceKind]
  | link kind destination title =>
      by_cases hk : kind = .email
      · simp [tagMode, named, hk, Mode.macroBody]
      · cases hr : reference folder destination <;> simp [tagMode, named, hk, hr, Mode.macroBody,
          referenceKind]
  | _ => rfl

/-- An image or link in markup that names an attachment opens the macro of its kind. -/
theorem step_opening_attachment (context : Context) {tags : List Tag} {tag : Tag}
    {kind : ReferenceKind} {r : Reference} (hc : s.code = none)
    (hf : s.frames = framesInside style.attachmentsFolder tags)
    (hm : modeInside style.attachmentsFolder tags = .markup)
    (hk : referenceKind tag = some kind) (hr : named style.attachmentsFolder tag = some r) :
    step style context s (.opening tag) =
      ({ s with
          frames := framesInside style.attachmentsFolder (tag :: tags)
          attachments := r :: s.attachments },
        attachmentStart kind r.filename (ownerTitle context r.directory)) := by
  have hbody : s.macroBody = none := by rw [macroBody_of_frames hf, hm]; rfl
  have hin : s.inDelegatedImage = false := by rw [inDelegatedImage_of_frames hf, hm]; rfl
  have ht : (tagMode style.attachmentsFolder tag).macroBody = some kind := by
    rw [macroBody_tagMode, hr]
    exact hk
  have hframes : framesInside style.attachmentsFolder (tag :: tags) =
      .attachment kind :: s.frames := by
    rw [framesInside_cons_of_kind hk, hm, ← hf, frameOf, if_pos (by rw [ht]; rfl)]
  have hopen : ∀ destination, reference style.attachmentsFolder destination = some r →
      openReference style context s tag kind (some destination) =
        ({ s with frames := .attachment kind :: s.frames, attachments := r :: s.attachments },
          attachmentStart kind r.filename (ownerTitle context r.directory)) := by
    intro destination hr
    have href : s.referenceAt style (some destination) = some r := by
      rw [State.referenceAt, hin]
      exact hr
    rw [openReference, hbody, href]
    rfl
  have hstep : step style context s (.opening tag) = openTag style context s tag := by
    rw [step, hc]
  rw [hstep, hframes]
  cases tag with
  | image destination title =>
      obtain rfl := Option.some.inj hk
      exact hopen destination hr
  | link linkKind destination title =>
      obtain rfl := Option.some.inj hk
      by_cases hemail : linkKind = .email
      · simp [named, hemail] at hr
      · rw [named, if_neg hemail] at hr
        rw [openTag, if_neg hemail]
        exact hopen destination hr
  | _ => cases hk

/-- The container of a macro closes it. -/
theorem step_closing_attachment (context : Context) {tags : List Tag} {tag : Tag}
    {kind : ReferenceKind} (hc : s.code = none)
    (hf : s.frames = framesInside style.attachmentsFolder (tag :: tags))
    (hm : modeInside style.attachmentsFolder tags = .markup)
    (ht : (tagMode style.attachmentsFolder tag).macroBody = some kind) :
    step style context s (.closing tag.closing) =
      ({ s with frames := framesInside style.attachmentsFolder tags }, attachmentEnd kind) := by
  have hk := referenceKind_of_macroBody ht
  have hframes : s.frames = .attachment kind :: framesInside style.attachmentsFolder tags := by
    rw [hf, framesInside_cons_of_kind hk, hm, frameOf, if_pos (by rw [ht]; rfl)]
  have hstep : step style context s (.closing tag.closing) = closeTag style s tag.closing := by
    rw [step, hc]
  rw [hstep]
  cases tag with
  | image destination title | link linkKind destination title =>
      simp only [Tag.closing, closeTag, closeReference, hframes]
  | _ => cases hk

/-! ## Events inside an attachment macro -/

variable {tags : List Tag}

/-- The state inside an attachment macro in which some tags are open. -/
def State.suppressing (s : State) (tags : List Tag) : State :=
  { s with frames := (tags.filter Tag.isReference).map (fun _ => .suppressed) ++ s.frames }

@[simp] theorem suppressing_nil (s : State) : s.suppressing [] = s := rfl

@[simp] theorem suppressing_code (s : State) (tags : List Tag) :
    (s.suppressing tags).code = s.code := rfl

/-- The tags inside a macro do not change which macro it is. -/
@[simp] theorem suppressing_macroBody (s : State) (tags : List Tag) :
    (s.suppressing tags).macroBody = s.macroBody := by
  rw [State.macroBody, State.suppressing, List.findSome?_append,
    List.findSome?_eq_none_iff.2, Option.none_or]
  · rfl
  · intro frame hframe
    obtain ⟨tag, -, rfl⟩ := List.mem_map.1 hframe
    rfl

theorem step_opening_inMacro {tag : Tag} (hc : s.code = none) (hm : s.macroBody.isSome)
    (ht : tag.isInline = true) :
    step style context (s.suppressing tags) (.opening tag) =
      (s.suppressing (tag :: tags), "") := by
  have hm' : (s.suppressing tags).macroBody.isSome := by rw [suppressing_macroBody, hm]
  have hstep : step style context (s.suppressing tags) (.opening tag) =
      openTag style context (s.suppressing tags) tag := by
    rw [step, suppressing_code, hc]
  rw [hstep]
  cases tag with
  | image destination title | link kind destination title =>
      rw [openTag, openReference, hm']
      rfl
  | emphasis | strong | strikethrough | superscript | subscript =>
      simp only [openTag, hm', if_true]
      rfl
  | _ => cases ht

theorem step_closing_inMacro {tag : Tag} (hc : s.code = none) (hm : s.macroBody.isSome)
    (ht : tag.isInline = true) :
    step style context (s.suppressing (tag :: tags)) (.closing tag.closing) =
      (s.suppressing tags, "") := by
  have hm' : (s.suppressing (tag :: tags)).macroBody.isSome := by rw [suppressing_macroBody, hm]
  have hstep : step style context (s.suppressing (tag :: tags)) (.closing tag.closing) =
      closeTag style (s.suppressing (tag :: tags)) tag.closing := by
    rw [step, suppressing_code, hc]
  rw [hstep]
  cases tag with
  | image destination title | link kind destination title => rfl
  | emphasis | strong | strikethrough | superscript | subscript =>
      simp only [Tag.closing, closeTag, hm', if_true]
      rfl
  | _ => cases ht

/-- A tag that is opened inside a macro is suppressed. -/
theorem suppressing_frames {tag : Tag} (hf : s.frames = framesInside folder tags)
    (hm : (modeInside folder tags).macroBody.isSome) :
    (s.suppressing [tag]).frames = framesInside folder (tag :: tags) := by
  have hframe : ∀ kind, frameOf folder (modeInside folder tags) tag kind = .suppressed := by
    intro kind
    cases hmode : modeInside folder tags with
    | linkBody => rfl
    | imageBody => rfl
    | _ => rw [hmode] at hm; cases hm
  cases tag with
  | image destination title | link kind destination title =>
      rw [framesInside_cons_of_kind rfl, hframe, ← hf]
      rfl
  | _ => rw [framesInside_cons_of_none rfl, ← hf]; rfl

/-- A closing inside a macro takes the frame off that its opening left. -/
theorem step_closing_suppressed (context : Context) {tag : Tag} (hc : s.code = none)
    (hf : s.frames = framesInside style.attachmentsFolder (tag :: tags))
    (hm : (modeInside style.attachmentsFolder tags).macroBody.isSome)
    (ht : tag.isInline = true) :
    step style context s (.closing tag.closing) =
      ({ s with frames := framesInside style.attachmentsFolder tags }, "") := by
  -- the state without the frame is the one that the container was opened in
  let s' : State := { s with frames := framesInside style.attachmentsFolder tags }
  have hframes : (s'.suppressing [tag]).frames =
      framesInside style.attachmentsFolder (tag :: tags) := suppressing_frames rfl hm
  have hs : s = s'.suppressing [tag] := by
    have hsame : s.frames = (s'.suppressing [tag]).frames := hf.trans hframes.symm
    show s = { s with frames := (s'.suppressing [tag]).frames }
    rw [← hsame]
  have hbody : s'.macroBody.isSome := by
    rw [macroBody_of_frames (show s'.frames = _ from rfl)]
    exact hm
  have hclose : step style context (s'.suppressing [tag]) (.closing tag.closing) =
      (s'.suppressing [], "") := step_closing_inMacro hc hbody ht
  rw [← hs, suppressing_nil] at hclose
  exact hclose

theorem step_leaf_inMacro {e : Event} {kind : ReferenceKind} (hc : s.code = none)
    (hm : s.macroBody = some kind) (he : e.isLeaf = true) :
    step style context s e = (s, if kind = .link then linkText e else "") := by
  rw [step_leaf hc he, leaf, hm]
  cases kind <;> rfl

end WikiPress.Storage
