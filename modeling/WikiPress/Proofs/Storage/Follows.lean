import WikiPress.Proofs.Storage.Elements

/-!
# WikiPress.Proofs.Storage.Follows

The state of the storage writer and of the XHTML writer under it, by the point of a stream
they have come to.

Design points:

* `Follows` is what the open containers say about the two states: the frames, whether code
  is being collected, how many images are open in an alternative text, and whether the
  cells of a table are cells of its head.
* There is one lemma for each way to take an event: text of a code macro, an event in
  markup, one in the alternative text of an image, and one inside an attachment macro.
  Each says that the writers follow the stream past the event, and what the text it adds
  does to a reader that has the elements of the open containers open.
* Raw markup may do anything to a reader, but the writers follow a stream past it like past
  any other leaf, so they follow every stream that has positions (`Follows.run`).
-/

namespace WikiPress.Storage

open WikiPress.Markup
open WikiPress.Xml (Reader Reads)

/-- Whether the text of a code macro is being collected. -/
def collecting (style : Style) : List Opened → Bool
  | ⟨.codeBlock info, _⟩ :: _ => languageOf info ≠ style.diagramLanguage
  | _ => false

/-- How many images are open where an alternative text is being collected. -/
def imagesOpen (folder : String) (tags : List Tag) : Option Nat :=
  if modeInside folder tags = .alternative then some (tags.countP Tag.isImage) else none

/-- Whether the nearest cells are those of a table's head; none outside of tables. -/
def headOf : Content → List Opened → Option Bool
  | .headCells, _ => some true
  | .rows, _ | .bodyCells, _ => some false
  | .inline, o :: rest => headOf o.outer rest
  | _, _ => none

/-- The writers' states at a point of a stream. -/
structure Follows (style : Style) (p : Position) (s : State) : Prop where
  linked : Linked p.content p.opened
  frames : s.frames = framesInside style.attachmentsFolder p.tags
  code : s.code.isSome = collecting style p.opened
  image : (s.html.image.map fun i => i.depth + 1) = imagesOpen style.attachmentsFolder p.tags
  head : ∀ b, headOf p.content p.opened = some b → s.html.table.inHead = b

theorem follows_start (style : Style) : Follows style .top .start :=
  ⟨rfl, rfl, rfl, rfl, by simp [Position.top, headOf]⟩

variable {style : Style} {context : Context} {p q : Position} {s : State}

/-! ## The open containers -/

/-- Code holds text only. -/
theorem literal_of_codeBlock {content : Content} {info : Option String} {outer : Content}
    {rest : List Opened} (h : Linked content (⟨.codeBlock info, outer⟩ :: rest)) :
    content = .literal := by
  obtain ⟨⟨inner, hin, hcontent⟩, -⟩ := h
  obtain ⟨-, rfl⟩ := Content.inside_block hin rfl (by simp)
  rcases hcontent with h | h <;> exact h

/-- Where code is being collected, only its text may come next. -/
theorem literal_of_collecting {content : Content} {opened : List Opened}
    (hlinked : Linked content opened) (h : collecting style opened = true) :
    ∃ info rest, opened = ⟨.codeBlock info, .flow⟩ :: rest ∧ content = .literal ∧
      languageOf info ≠ style.diagramLanguage := by
  cases opened with
  | nil => cases h
  | cons o rest =>
      obtain ⟨tag, outer⟩ := o
      obtain ⟨⟨inner, hin, hcontent⟩, -⟩ := hlinked
      cases tag with
      | codeBlock info =>
          have hlanguage : languageOf info ≠ style.diagramLanguage := by
            simpa [collecting] using h
          obtain ⟨houter, rfl⟩ := Content.inside_block hin rfl (by simp)
          obtain rfl : outer = .flow := houter
          have hliteral : content = .literal := by rcases hcontent with rfl | rfl <;> rfl
          exact ⟨info, rest, rfl, hliteral, hlanguage⟩
      | _ => cases h

theorem not_collecting_of_ne {content : Content} {opened : List Opened}
    (hlinked : Linked content opened) (h : content ≠ .literal) :
    collecting style opened = false := by
  by_cases hc : collecting style opened = true
  · obtain ⟨-, -, -, hliteral, -⟩ := literal_of_collecting hlinked hc
    exact absurd hliteral h
  · simpa using hc

theorem imagesOpen_of_ne {folder : String} {tags : List Tag}
    (h : modeInside folder tags ≠ .alternative) : imagesOpen folder tags = none := if_neg h

/-- The cells inside a container that is opened are those around it, unless it is a table
or its head. -/
theorem headOf_opening {outer inner : Content} {tag : Tag} {opened : List Opened} {b : Bool}
    (hin : outer.inside tag = some inner) (h : headOf inner (⟨tag, outer⟩ :: opened) = some b) :
    (tag = .tableHead ∧ b = true) ∨
      (tag ≠ .tableHead ∧ tag.content ≠ .table ∧ headOf outer opened = some b) := by
  rcases Content.inside_cases hin with ⟨rfl, ht, rfl⟩ | ⟨rfl, rfl, hpart⟩ | ⟨rfl, rfl, rfl⟩ |
    ⟨rfl, rfl, rfl⟩ | ⟨houter, rfl, rfl⟩
  · refine Or.inr ⟨?_, ?_, by simpa only [headOf] using h⟩
    · rintro rfl
      cases ht
    · cases tag <;> first | (cases ht; done) | simp [Tag.content]
  · cases hcontent : tag.content with
    | headCells => cases tag <;> simp [Tag.content] at hcontent hpart
    | bodyCells => cases tag <;> simp [Tag.content] at hcontent hpart
    | rows => cases tag <;> simp [Tag.content] at hcontent
    | _ => simp [hcontent, headOf] at h
  · simp only [headOf, Option.some.injEq] at h
    exact Or.inl ⟨rfl, h.symm⟩
  · refine Or.inr ⟨by simp, by simp [Tag.content], ?_⟩
    simpa only [headOf] using h
  · refine Or.inr ⟨by simp, by simp [Tag.content], ?_⟩
    simpa only [headOf] using h

/-- The cells behind a container that is closed are those inside it, unless it is a head. -/
theorem headOf_closing {o : Opened} {content : Content} {rest : List Opened} {b : Bool}
    (hlinked : Linked content (o :: rest)) (h : headOf o.outer.after rest = some b) :
    (o.tag = .tableHead ∧ b = false) ∨
      (o.tag ≠ .tableHead ∧ headOf content (o :: rest) = some b) := by
  obtain ⟨⟨inner, hin, hcontent⟩, -⟩ := hlinked
  obtain ⟨tag, outer⟩ := o
  simp only at hin h ⊢
  rcases Content.inside_cases hin with ⟨rfl, ht, rfl⟩ | ⟨rfl, rfl, hpart⟩ | ⟨rfl, rfl, rfl⟩ |
    ⟨rfl, rfl, rfl⟩ | ⟨houter, rfl, rfl⟩
  · obtain rfl : content = .inline := by rcases hcontent with rfl | rfl <;> rfl
    refine Or.inr ⟨?_, by simpa only [headOf, Content.after] using h⟩
    rintro rfl
    cases ht
  · simp [Content.after, headOf] at h
  · simp only [Content.after, headOf, Option.some.injEq] at h
    exact Or.inl ⟨rfl, h.symm⟩
  · obtain rfl : content = .bodyCells := by rcases hcontent with rfl | rfl <;> rfl
    simp only [Content.after, headOf] at h
    exact Or.inr ⟨by simp, by simpa only [headOf] using h⟩
  · obtain rfl : content = .inline := by rcases hcontent with rfl | rfl <;> rfl
    refine Or.inr ⟨by simp, ?_⟩
    rcases houter with rfl | rfl
    · simpa only [headOf, Content.after] using h
    · simpa only [headOf, Content.after] using h

theorem inside_cell {outer inner : Content} (hin : outer.inside .tableCell = some inner) :
    inner = .inline := by
  cases outer <;> cases hin <;> rfl

/-- A cell knows of which kind it is. -/
theorem headOf_cell {outer inner : Content} (opened : List Opened)
    (hin : outer.inside .tableCell = some inner) :
    headOf outer opened = some (decide (outer = .headCells)) := by
  cases outer <;> first | (cases hin; done) | simp [headOf]

/-! ## Running text -/

section Inline

variable {tag : Tag}

theorem isInline_of_isImage (h : tag.isImage = true) : tag.isInline = true := by
  cases tag <;> first | rfl | cases h

theorem isInline_of_referenceKind {kind : ReferenceKind} (h : referenceKind tag = some kind) :
    tag.isInline = true := by
  cases tag <;> first | rfl | cases h

/-- Running text has no part in a table. -/
theorem inHead_of_inline (h : tag.isInline = true) (inHead : Bool) :
    (if tag = .tableHead then true else if tag.content = .table then false else inHead) = inHead
      ∧ (if tag = .tableHead then false else inHead) = inHead := by
  cases tag <;> first | exact ⟨rfl, rfl⟩ | cases h

theorem elementsBehind_of_inline (h : tag.isInline = true) : Xhtml.elementsBehind tag = [] := by
  cases tag <;> first | rfl | cases h

theorem not_collecting_of_inline (h : tag.isInline = true) (outer : Content)
    (rest : List Opened) : collecting style (⟨tag, outer⟩ :: rest) = false := by
  cases tag <;> first | rfl | cases h

end Inline

theorem macro_ne {mode : Mode} {kind : ReferenceKind} (h : mode.macroBody = some kind) :
    mode ≠ .markup ∧ mode ≠ .alternative := by
  constructor
  · rintro rfl
    cases h
  · rintro rfl
    cases h

/-- No image is open in markup. -/
theorem countP_isImage_of_markup {folder : String} {tags : List Tag}
    (h : modeInside folder tags = .markup) : tags.countP Tag.isImage = 0 := by
  rw [List.countP_eq_zero]
  intro tag htag
  rw [not_image_of_markup h tag htag]
  simp

/-- What an image or link in markup has inside if it is no macro. -/
theorem tagMode_of_plain {folder : String} {tag : Tag} {kind : ReferenceKind}
    (hkind : referenceKind tag = some kind) (hattached : (tagMode folder tag).macroBody = none) :
    tagMode folder tag = if kind = .image then .alternative else .markup := by
  rcases tagMode_of_reference folder hkind with h | h
  · rw [hattached] at h
    cases h
  · exact h

/-! ## Following past an event -/

theorem Follows.of_opening {tag : Tag} {content : Content} {s' : State}
    (h : Follows style p s) (hin : p.content.inside tag = some content)
    (hframes : s'.frames = framesInside style.attachmentsFolder (tag :: p.tags))
    (hcode : s'.code.isSome = collecting style (⟨tag, p.content⟩ :: p.opened))
    (himage : (s'.html.image.map fun i => i.depth + 1) =
      imagesOpen style.attachmentsFolder (tag :: p.tags))
    (hhead : s'.html.table.inHead =
      if tag = .tableHead then true
      else if tag.content = .table then false else s.html.table.inHead) :
    Follows style ⟨content, ⟨tag, p.content⟩ :: p.opened⟩ s' := by
  refine ⟨⟨⟨content, hin, Or.inl rfl⟩, h.linked⟩, hframes, hcode, himage, fun b hb => ?_⟩
  rcases headOf_opening hin hb with ⟨htag, rfl⟩ | ⟨htag, htable, houter⟩
  · rw [hhead, if_pos htag]
  · rw [hhead, if_neg htag, if_neg htable, h.head b houter]

theorem Follows.of_closing {o : Opened} {rest : List Opened} {s' : State}
    (h : Follows style p s) (hopened : p.opened = o :: rest)
    (hframes : s'.frames = framesInside style.attachmentsFolder (rest.map Opened.tag))
    (hcode : s'.code = none)
    (himage : (s'.html.image.map fun i => i.depth + 1) =
      imagesOpen style.attachmentsFolder (rest.map Opened.tag))
    (hhead : s'.html.table.inHead =
      if o.tag = .tableHead then false else s.html.table.inHead) :
    Follows style ⟨o.outer.after, rest⟩ s' := by
  have hlinked := h.linked
  rw [hopened] at hlinked
  obtain ⟨⟨inner, hin, -⟩, hrest⟩ := id hlinked
  have houter : o.outer ≠ .literal := by
    intro ho
    rw [ho] at hin
    cases hin
  refine ⟨hrest.after, hframes, ?_, himage, fun b hb => ?_⟩
  · rw [hcode, not_collecting_of_ne hrest houter]
    rfl
  · rcases headOf_closing hlinked hb with ⟨htag, rfl⟩ | ⟨htag, hinside⟩
    · rw [hhead, if_pos htag]
    · rw [hhead, if_neg htag, h.head b (by rw [hopened]; exact hinside)]

/-- A leaf keeps everything the open containers say. -/
theorem Follows.of_leaf {s' : State} (h : Follows style p s) (hframes : s'.frames = s.frames)
    (hcode : s'.code.isSome = s.code.isSome)
    (himage : (s'.html.image.map fun i => i.depth + 1) = s.html.image.map fun i => i.depth + 1)
    (hhead : s'.html.table = s.html.table) : Follows style p s' :=
  ⟨h.linked, hframes.trans h.frames, hcode.trans h.code, himage.trans h.image,
    fun b hb => by rw [hhead]; exact h.head b hb⟩

/-- Where the events inside a container stand, when nothing of them is written yet. -/
def Mode.place : Mode → Xml.Place
  | .linkBody => .section 0
  | _ => .text

/-- The writers follow a stream past an event, and the text it adds leads a reader from the
elements of the containers in front of it to those behind it. -/
structure Advances (style : Style) (p : Position) (place : Xml.Place) (q : Position)
    (place' : Xml.Place) (result : State × String) : Prop where
  follows : Follows style q result.1
  reads : Reads ⟨place, elementsIn style.attachmentsFolder p.content p.opened⟩ result.2
    ⟨place', elementsIn style.attachmentsFolder q.content q.opened⟩

theorem Advances.of_elements {place place' : Xml.Place} {result : State × String}
    {elements : List (List Char)} (hfollows : Follows style q result.1)
    (helements : elementsIn style.attachmentsFolder q.content q.opened = elements)
    (hreads : Reads ⟨place, elementsIn style.attachmentsFolder p.content p.opened⟩ result.2
      ⟨place', elements⟩) : Advances style p place q place' result :=
  ⟨hfollows, by rw [helements]; exact hreads⟩

/-! ## Code macros -/

theorem Follows.step_collecting (context : Context) (h : Follows style p s)
    (hc : collecting style p.opened = true) {e : Event} (hstep : p.step e = some q) :
    modeInside style.attachmentsFolder p.tags = .markup ∧
      modeInside style.attachmentsFolder q.tags = .markup ∧
      Advances style p .text q .text (step style context s e) := by
  obtain ⟨content, opened⟩ := p
  obtain ⟨info, rest, rfl, rfl, -⟩ := literal_of_collecting h.linked hc
  obtain ⟨code, hcode⟩ : ∃ code, s.code = some code :=
    Option.isSome_iff_exists.1 (h.code.trans hc)
  have hrun : ∀ e, step style context s e = codeStep s code e := by
    intro e
    simp only [step, hcode]
  -- a code block is no running text, so it stands in markup
  have hrest : modeInside style.attachmentsFolder (rest.map Opened.tag) = .markup := by
    by_cases hmode : modeInside style.attachmentsFolder (rest.map Opened.tag) = .markup
    · exact hmode
    · exact absurd (inline_of_modeInside h.linked.2 hmode) (by simp)
  have hmode : modeInside style.attachmentsFolder
      (Position.tags ⟨.literal, ⟨.codeBlock info, .flow⟩ :: rest⟩) = .markup := by
    show modeInside style.attachmentsFolder (.codeBlock info :: rest.map Opened.tag) = .markup
    rw [modeInside_cons_of_markup hrest]
    rfl
  have helements : elementsIn style.attachmentsFolder .literal
      (⟨.codeBlock info, .flow⟩ :: rest) =
      elementsIn style.attachmentsFolder .flow rest := by
    rw [elementsIn, hrest]
    rfl
  rw [hrun]
  cases e with
  | opening tag =>
      obtain ⟨inner, hin, -⟩ := Position.step_opening hstep
      cases hin
  | closing c =>
      obtain ⟨o, -, rfl, hopened, hcontent⟩ := Position.step_closing hstep
      obtain ⟨rfl, hq⟩ := List.cons.inj hopened
      obtain ⟨content, opened⟩ := q
      obtain rfl : content = .flow := hcontent
      obtain rfl : rest = opened := hq
      refine ⟨hmode, hrest, ?_, ?_⟩
      · refine h.of_closing rfl ?_ rfl ?_ rfl
        · exact h.frames
        · rw [imagesOpen_of_ne (by rw [hrest]; simp)]
          exact h.image.trans (imagesOpen_of_ne (by rw [hmode]; simp))
      · rw [helements]
        exact reads_codeMacro code.language code.text
  | text t =>
      obtain ⟨-, rfl⟩ := Position.step_leaf rfl hstep
      exact ⟨hmode, hmode, h.of_leaf rfl (by rw [hcode]; rfl) rfl rfl, Reads.empty _⟩
  | _ =>
      obtain ⟨hadmits, -⟩ := Position.step_leaf rfl hstep
      cases hadmits

/-! ## Markup -/

theorem Follows.code_eq_none (h : Follows style p s) (hc : collecting style p.opened = false) :
    s.code = none :=
  Option.isSome_eq_false_iff.1 (h.code.trans hc) |> Option.isNone_iff_eq_none.1

theorem Follows.no_image (h : Follows style p s)
    (hm : modeInside style.attachmentsFolder p.tags ≠ .alternative) : s.html.image = none := by
  have himage := h.image
  rw [imagesOpen_of_ne hm] at himage
  exact Option.map_eq_none_iff.1 himage

/-- The elements inside a container that stands in markup. -/
theorem elementsIn_cons_of_markup {folder : String} {inner : Content} {o : Opened}
    {rest : List Opened} (hm : modeInside folder (rest.map Opened.tag) = .markup) :
    elementsIn folder inner (o :: rest) =
      elementsAt folder .markup inner o ++ elementsIn folder o.outer rest := by
  rw [elementsIn, hm]

/-- An image in markup that is no macro is the first one of its alternative text. -/
theorem imagesOpen_cons_of_markup {folder : String} {tags : List Tag} {tag : Tag}
    (hm : modeInside folder tags = .markup) (hattached : (tagMode folder tag).macroBody = none) :
    imagesOpen folder (tag :: tags) = if tag.isImage then some 1 else none := by
  unfold imagesOpen
  rw [modeInside_cons_of_markup hm]
  cases tag with
  | image destination title =>
      rw [tagMode_of_plain rfl hattached, List.countP_cons, countP_isImage_of_markup hm]
      rfl
  | link kind destination title =>
      rw [tagMode_of_plain rfl hattached]
      rfl
  | _ => rfl

/-- The state and the text of an opening that is left to the XHTML writer. -/
theorem Follows.opening_delegated {tag : Tag} {content : Content} {result : State × String}
    (h : Follows style p s) (hm : modeInside style.attachmentsFolder p.tags = .markup)
    (hin : p.content.inside tag = some content) (hquote : tag ≠ .blockQuote)
    (hattached : (tagMode style.attachmentsFolder tag).macroBody = none)
    (hcode : s.code.isSome = collecting style (⟨tag, p.content⟩ :: p.opened))
    (hresult : result = delegate style
      { s with frames := framesInside style.attachmentsFolder (tag :: p.tags) } (.opening tag)) :
    Advances style p .text ⟨content, ⟨tag, p.content⟩ :: p.opened⟩
      (modeInside style.attachmentsFolder (tag :: p.tags)).place result := by
  have himage : s.html.image = none := h.no_image (by rw [hm]; simp)
  have hhtml : Xhtml.step style.hardLineBreak s.html (.opening tag) = Xhtml.openTag s.html tag := by
    simp only [Xhtml.step, himage]
  -- the flag of the writer is what the grammar says of the cells
  have hcell : tag = .tableCell → s.html.table.inHead = decide (p.content = .headCells) := by
    rintro rfl
    exact h.head _ (headOf_cell p.opened hin)
  have hplace : (modeInside style.attachmentsFolder (tag :: p.tags)).place = .text := by
    rw [modeInside_cons_of_markup hm]
    cases hmode : tagMode style.attachmentsFolder tag with
    | linkBody => rw [hmode] at hattached; cases hattached
    | _ => rfl
  have helements : elementsIn style.attachmentsFolder content (⟨tag, p.content⟩ :: p.opened) =
      Xhtml.elementsOf content ⟨tag, p.content⟩ ++
        elementsIn style.attachmentsFolder p.content p.opened := by
    rw [elementsIn_cons_of_markup hm]
    simp only [elementsAt, hattached, if_neg hquote]
  subst hresult
  refine ⟨h.of_opening hin rfl hcode ?_ ?_, ?_⟩
  · show ((Xhtml.step style.hardLineBreak s.html (.opening tag)).1.image.map _) = _
    rw [hhtml, imagesOpen_cons_of_markup hm hattached]
    by_cases hi : tag.isImage = true
    · cases tag with
      | image destination title => rfl
      | _ => cases hi
    · rw [Xhtml.openTag_image (by simpa using hi), himage, if_neg hi]
      rfl
  · show (Xhtml.step style.hardLineBreak s.html (.opening tag)).1.table.inHead = _
    rw [hhtml, Xhtml.openTag_inHead]
  · show Reads _ (Xhtml.step style.hardLineBreak s.html (.opening tag)).2 _
    rw [hhtml, hplace, helements]
    exact Xhtml.reads_openTag hin hcell

/-- An image or link in markup that names an attachment. -/
theorem Follows.opening_attachment (context : Context) {tag : Tag} {content : Content}
    {kind : ReferenceKind} (h : Follows style p s) (hc : s.code = none)
    (hm : modeInside style.attachmentsFolder p.tags = .markup)
    (hin : p.content.inside tag = some content)
    (hattached : (tagMode style.attachmentsFolder tag).macroBody = some kind) :
    Advances style p .text ⟨content, ⟨tag, p.content⟩ :: p.opened⟩
      (modeInside style.attachmentsFolder (tag :: p.tags)).place
      (step style context s (.opening tag)) := by
  have himage : s.html.image = none := h.no_image (by rw [hm]; simp)
  have hkind := referenceKind_of_macroBody hattached
  have htag := isInline_of_referenceKind hkind
  obtain ⟨r, hr⟩ : ∃ r, named style.attachmentsFolder tag = some r := by
    rw [macroBody_tagMode] at hattached
    by_cases hnamed : (named style.attachmentsFolder tag).isSome
    · exact Option.isSome_iff_exists.1 hnamed
    · rw [if_neg hnamed] at hattached
      cases hattached
  have hopen := step_opening_attachment context hc h.frames hm hkind hr
  have hmode : modeInside style.attachmentsFolder (tag :: p.tags) ≠ .alternative := by
    rw [modeInside_cons_of_markup hm]
    exact (macro_ne hattached).2
  have hplace : (modeInside style.attachmentsFolder (tag :: p.tags)).place = childPlace kind := by
    rw [modeInside_cons_of_markup hm]
    cases hmode : tagMode style.attachmentsFolder tag <;> rw [hmode] at hattached <;>
      cases hattached <;> rfl
  have helements : elementsIn style.attachmentsFolder content (⟨tag, p.content⟩ :: p.opened) =
      macroElements kind ++ elementsIn style.attachmentsFolder p.content p.opened := by
    rw [elementsIn_cons_of_markup hm]
    simp only [elementsAt, hattached]
  rw [hopen, hplace]
  refine .of_elements (h.of_opening hin rfl ?_ ?_ ?_) helements (reads_attachmentStart kind _ _)
  · rw [hc, not_collecting_of_inline htag]
    rfl
  · rw [imagesOpen_of_ne hmode]
    simp only [himage, Option.map_none]
  · exact (inHead_of_inline htag _).1.symm

/-- A block quote becomes a tip. -/
theorem Follows.opening_quote (context : Context) {content : Content} (h : Follows style p s)
    (hc : s.code = none) (hm : modeInside style.attachmentsFolder p.tags = .markup)
    (hin : p.content.inside .blockQuote = some content) :
    Advances style p .text ⟨content, ⟨.blockQuote, p.content⟩ :: p.opened⟩
      (modeInside style.attachmentsFolder (.blockQuote :: p.tags)).place
      (step style context s (.opening .blockQuote)) := by
  have helements : elementsIn style.attachmentsFolder content
      (⟨.blockQuote, p.content⟩ :: p.opened) =
      tipElements ++ elementsIn style.attachmentsFolder p.content p.opened := by
    rw [elementsIn_cons_of_markup hm]
    rfl
  have hplace : (modeInside style.attachmentsFolder (.blockQuote :: p.tags)).place = .text := by
    rw [modeInside_cons_of_markup hm]
    rfl
  rw [step_opening_quote style context hc, hplace]
  refine .of_elements (h.of_opening hin h.frames ?_ ?_ rfl) helements
    (reads_tipStart style.tipTitle)
  · rw [hc]
    rfl
  · rw [imagesOpen_cons_of_markup hm rfl, h.no_image (by rw [hm]; simp)]
    rfl

/-- A code block that becomes a macro is put off until its end. -/
theorem Follows.opening_code (context : Context) {info : Option String} {content : Content}
    (h : Follows style p s) (hc : s.code = none)
    (hm : modeInside style.attachmentsFolder p.tags = .markup)
    (hin : p.content.inside (.codeBlock info) = some content)
    (hlanguage : languageOf info ≠ style.diagramLanguage) :
    Advances style p .text ⟨content, ⟨.codeBlock info, p.content⟩ :: p.opened⟩
      (modeInside style.attachmentsFolder (.codeBlock info :: p.tags)).place
      (step style context s (.opening (.codeBlock info))) := by
  have helements : elementsIn style.attachmentsFolder content
      (⟨.codeBlock info, p.content⟩ :: p.opened) =
      elementsIn style.attachmentsFolder p.content p.opened := by
    rw [elementsIn_cons_of_markup hm]
    rfl
  have hplace : (modeInside style.attachmentsFolder (.codeBlock info :: p.tags)).place = .text := by
    rw [modeInside_cons_of_markup hm]
    rfl
  rw [step_opening_code context hc hlanguage, hplace]
  refine .of_elements (h.of_opening hin h.frames ?_ ?_ rfl) helements (Reads.empty _)
  · show true = decide (languageOf info ≠ style.diagramLanguage)
    simp [hlanguage]
  · rw [imagesOpen_cons_of_markup hm rfl, h.no_image (by rw [hm]; simp)]
    rfl

/-- An opening in markup: a macro, or a container of the XHTML writer. -/
theorem Follows.opening_in_markup (context : Context) {tag : Tag} {content : Content}
    (h : Follows style p s) (hc : s.code = none)
    (hm : modeInside style.attachmentsFolder p.tags = .markup)
    (hin : p.content.inside tag = some content) :
    Advances style p .text ⟨content, ⟨tag, p.content⟩ :: p.opened⟩
      (modeInside style.attachmentsFolder (tag :: p.tags)).place
      (step style context s (.opening tag)) := by
  -- the storage writer has an opening of its own for three kinds of containers
  cases hattached : (tagMode style.attachmentsFolder tag).macroBody with
  | some kind => exact h.opening_attachment context hc hm hin hattached
  | none =>
      have hplain : (modeInside style.attachmentsFolder p.tags).macroBody = none := by rw [hm]; rfl
      by_cases hquote : tag = .blockQuote
      · subst hquote
        exact h.opening_quote context hc hm hin
      · by_cases hcode : ∃ info, tag = .codeBlock info ∧ languageOf info ≠ style.diagramLanguage
        · obtain ⟨info, rfl, hlanguage⟩ := hcode
          exact h.opening_code context hc hm hin hlanguage
        · have hdelegable : Delegable style (modeInside style.attachmentsFolder p.tags)
              (.opening tag) :=
            delegable_opening hquote
              (fun info htag => not_not.1 fun hlanguage => hcode ⟨info, htag, hlanguage⟩)
              fun _ => hattached
          have hcollecting : s.code.isSome = collecting style (⟨tag, p.content⟩ :: p.opened) := by
            rw [hc]
            cases tag with
            | codeBlock info =>
                have hlanguage : languageOf info = style.diagramLanguage := hdelegable
                simp [collecting, hlanguage]
            | _ => rfl
          have hstep : step style context s (.opening tag) = _ :=
            step_opening_delegated hc h.frames hplain hdelegable
          exact h.opening_delegated hm hin hquote hattached hcollecting hstep

/-- What surrounds a container in markup is markup, and the container is no macro. -/
theorem markup_of_cons {folder : String} {tag : Tag} {tags : List Tag}
    (h : modeInside folder (tag :: tags) = .markup) :
    modeInside folder tags = .markup ∧ (tagMode folder tag).macroBody = none := by
  by_cases hm : modeInside folder tags = .markup
  · rw [modeInside_cons_of_markup hm] at h
    exact ⟨hm, by rw [h]; rfl⟩
  · rw [modeInside_cons_of_ne hm] at h
    exact absurd h hm

/-- A closing in markup takes the elements of its container off. -/
theorem Follows.closing_in_markup (context : Context) {content : Content} {o : Opened}
    {rest : List Opened} (h : Follows style ⟨content, o :: rest⟩ s) (hc : s.code = none)
    (hm : modeInside style.attachmentsFolder (o.tag :: rest.map Opened.tag) = .markup)
    (hcomplete : content.complete = true) :
    Advances style ⟨content, o :: rest⟩ .text ⟨o.outer.after, rest⟩ .text
      (step style context s (.closing o.tag.closing)) := by
  obtain ⟨hrest, hattached⟩ := markup_of_cons hm
  have himage : s.html.image = none := h.no_image (by
    show modeInside _ (o.tag :: rest.map Opened.tag) ≠ _
    rw [hm]
    simp)
  obtain ⟨⟨inner, hin, hcontent⟩, hlinked⟩ := id h.linked
  have hnone : imagesOpen style.attachmentsFolder (rest.map Opened.tag) = none :=
    imagesOpen_of_ne (by rw [hrest]; simp)
  have helements : elementsIn style.attachmentsFolder o.outer.after rest =
      Xhtml.elementsBehind o.tag ++ elementsIn style.attachmentsFolder o.outer rest :=
    elementsIn_after hlinked hin
  by_cases hquote : o.tag = .blockQuote
  · have hstep : step style context s (.closing o.tag.closing) = (s, tipEnd) := by
      simp only [step, hc, hquote, Tag.closing, closeTag]
    rw [hstep]
    refine .of_elements (h.of_closing rfl ?_ hc ?_ ?_) helements ?_
    · have hframes := h.frames
      rw [hframes]
      show framesInside _ (o.tag :: rest.map Opened.tag) = _
      rw [hquote]
      rfl
    · rw [himage, hnone]
      rfl
    · rw [hquote]
      rfl
    · rw [elementsIn_cons_of_markup hrest, hquote]
      simp only [elementsAt, hquote, if_true]
      exact reads_tipEnd
  · have hplain : (modeInside style.attachmentsFolder (o.tag :: rest.map Opened.tag)).macroBody =
        none := by
      rw [hm]
      rfl
    have hstep : step style context s (.closing o.tag.closing) = _ :=
      step_closing_delegated hc h.frames hplain hquote
    have hhtml : Xhtml.step style.hardLineBreak s.html (.closing o.tag.closing) =
        Xhtml.closeTag s.html o.tag.closing := by
      simp only [Xhtml.step, himage]
    have hcell : o.tag = .tableCell → s.html.table.inHead = decide (o.outer = .headCells) := by
      intro htag
      rw [htag] at hin
      obtain rfl := inside_cell hin
      obtain rfl : content = .inline := by rcases hcontent with rfl | rfl <;> rfl
      refine h.head _ ?_
      simp only [headOf]
      exact headOf_cell rest hin
    rw [hstep]
    refine .of_elements (h.of_closing rfl rfl hc ?_ ?_) helements ?_
    · show (Xhtml.step style.hardLineBreak s.html (.closing o.tag.closing)).1.image.map _ = _
      rw [hhtml, Xhtml.closeTag_image, himage, hnone]
      rfl
    · show (Xhtml.step style.hardLineBreak s.html (.closing o.tag.closing)).1.table.inHead = _
      rw [hhtml, Xhtml.closeTag_inHead]
    · show Reads _ (Xhtml.step style.hardLineBreak s.html (.closing o.tag.closing)).2 _
      rw [hhtml, elementsIn_cons_of_markup hrest]
      simp only [elementsAt, hattached, if_neg hquote]
      exact Xhtml.reads_closeTag ⟨inner, hin, hcontent⟩ hcomplete hcell

/-- A leaf outside of macros. -/
theorem Follows.leaf_delegated (context : Context) {e : Event} (h : Follows style p s)
    (hc : s.code = none) (hm : (modeInside style.attachmentsFolder p.tags).macroBody = none)
    (he : e.isLeaf = true) (hraw : e.isRaw = false) :
    Advances style p .text p .text (step style context s e) := by
  obtain ⟨himage, htable⟩ := Xhtml.step_leaf_state style.hardLineBreak s.html he
  rw [step_leaf_delegated hc h.frames hm he]
  exact ⟨h.of_leaf rfl rfl himage htable, Xhtml.reads_leaf _ _ he hraw⟩

/-! ## Alternative text -/

/-- Only an image has an alternative text. -/
theorem isImage_of_tagMode {folder : String} {tag : Tag} (h : tagMode folder tag = .alternative) :
    tag.isImage = true := by
  cases tag with
  | image destination title => rfl
  | link kind destination title =>
      by_cases hr : kind ≠ .email ∧ (Attachment.reference folder destination).isSome <;>
        simp [tagMode, hr] at h
  | _ => cases h

/-- Inside an alternative text an image is open. -/
theorem image_of_alternative {folder : String} {tags : List Tag}
    (h : modeInside folder tags = .alternative) : 1 ≤ tags.countP Tag.isImage := by
  induction tags with
  | nil => cases h
  | cons tag outer ih =>
      rw [List.countP_cons]
      by_cases hm : modeInside folder outer = .markup
      · rw [modeInside_cons_of_markup hm] at h
        rw [isImage_of_tagMode h]
        simp
      · rw [modeInside_cons_of_ne hm] at h
        have := ih h
        omega

theorem Follows.pendingImage (h : Follows style p s)
    (hm : modeInside style.attachmentsFolder p.tags = .alternative) :
    ∃ i, s.html.image = some i ∧ i.depth + 1 = p.tags.countP Tag.isImage := by
  have himage := h.image
  rw [imagesOpen, if_pos hm] at himage
  exact Option.map_eq_some_iff.1 himage

/-- Running text that is opened in an alternative text is only counted. -/
theorem Follows.opening_in_alternative (context : Context) {tag : Tag} {content : Content}
    (h : Follows style p s) (hc : s.code = none)
    (hm : modeInside style.attachmentsFolder p.tags = .alternative)
    (hin : p.content.inside tag = some content) :
    Advances style p .text ⟨content, ⟨tag, p.content⟩ :: p.opened⟩ .text
      (step style context s (.opening tag)) := by
  have hinline : p.content = .inline := inline_of_modeInside h.linked (by
    rw [show p.opened.map Opened.tag = p.tags from rfl, hm]; simp)
  have htag : tag.isInline = true := by
    rw [hinline] at hin
    exact (Content.inside_inline hin).1
  obtain ⟨i, himage, hdepth⟩ := h.pendingImage hm
  have hmode : modeInside style.attachmentsFolder (tag :: p.tags) = .alternative := by
    rw [modeInside_cons_of_ne (by rw [hm]; simp), hm]
  have hdelegable : Delegable style (modeInside style.attachmentsFolder p.tags) (.opening tag) := by
    cases tag with
    | blockQuote => cases htag
    | codeBlock info => cases htag
    | _ => exact fun hmarkup => absurd (hm.symm.trans hmarkup) (by simp)
  have hstep : step style context s (.opening tag) = _ :=
    step_opening_delegated hc h.frames (by rw [hm]; rfl) hdelegable
  have hhtml : Xhtml.step style.hardLineBreak s.html (.opening tag) =
      ({ s.html with image := some (i.enter tag) }, "") := by
    simp only [Xhtml.step, himage]
  have helements : elementsIn style.attachmentsFolder content (⟨tag, p.content⟩ :: p.opened) =
      elementsIn style.attachmentsFolder p.content p.opened := by
    rw [elementsIn, show p.opened.map Opened.tag = p.tags from rfl, hm]
    rfl
  rw [hstep]
  refine .of_elements (h.of_opening hin rfl ?_ ?_ ?_) helements ?_
  · show s.code.isSome = _
    rw [hc, not_collecting_of_inline htag]
    rfl
  · show ((Xhtml.step style.hardLineBreak s.html (.opening tag)).1.image.map _) = _
    rw [hhtml, imagesOpen, if_pos hmode, List.countP_cons, ← hdepth]
    cases tag with
    | image destination title => rfl
    | _ => rfl
  · show (Xhtml.step style.hardLineBreak s.html (.opening tag)).1.table.inHead = _
    rw [hhtml]
    exact (inHead_of_inline htag _).1.symm
  · show Reads _ (Xhtml.step style.hardLineBreak s.html (.opening tag)).2 _
    rw [hhtml]
    exact Reads.empty _

/-- What closes in an alternative text is an image or part of one. -/
theorem not_quote_of_alternative {folder : String} {content : Content} {o : Opened}
    {rest : List Opened} (hlinked : Linked content (o :: rest))
    (hm : modeInside folder (o.tag :: rest.map Opened.tag) = .alternative) :
    o.tag ≠ .blockQuote := by
  intro hquote
  have hne : modeInside folder (o.tag :: rest.map Opened.tag) ≠ .markup := by
    rw [hm]
    simp
  have hinline := inline_of_modeInside hlinked hne
  obtain ⟨⟨inner, hin, hcontent⟩, -⟩ := hlinked
  rw [hquote] at hin
  obtain ⟨-, rfl⟩ := Content.inside_block hin rfl (by simp)
  rw [hinline] at hcontent
  rcases hcontent with hcontent | hcontent <;> cases hcontent

/-- The closing of the image that an alternative text belongs to. -/
theorem Follows.closing_image (context : Context) {content : Content} {o : Opened}
    {rest : List Opened} (h : Follows style ⟨content, o :: rest⟩ s) (hc : s.code = none)
    (hm : modeInside style.attachmentsFolder (o.tag :: rest.map Opened.tag) = .alternative)
    (hrest : modeInside style.attachmentsFolder (rest.map Opened.tag) = .markup) :
    Advances style ⟨content, o :: rest⟩ .text ⟨o.outer.after, rest⟩ .text
      (step style context s (.closing o.tag.closing)) := by
  obtain ⟨i, himage, hdepth⟩ := h.pendingImage hm
  have hquote := not_quote_of_alternative h.linked hm
  have hplain : (modeInside style.attachmentsFolder (o.tag :: rest.map Opened.tag)).macroBody =
      none := by rw [hm]; rfl
  have hstep : step style context s (.closing o.tag.closing) = _ :=
    step_closing_delegated hc h.frames hplain hquote
  rw [modeInside_cons_of_markup hrest] at hm
  have htag := isImage_of_tagMode hm
  have hinline := isInline_of_isImage htag
  -- it is the only image that is open
  have hzero : i.depth = 0 := by
    have hdepth' : i.depth + 1 = (o.tag :: rest.map Opened.tag).countP Tag.isImage := hdepth
    rw [List.countP_cons, countP_isImage_of_markup hrest, htag, if_pos rfl] at hdepth'
    omega
  have hhtml : Xhtml.step style.hardLineBreak s.html (.closing o.tag.closing) =
      ({ s.html with image := none }, i.write) := by
    have hleave : Xhtml.step style.hardLineBreak s.html (.closing o.tag.closing) =
        i.leave s.html o.tag.closing := by simp only [Xhtml.step, himage]
    rw [hleave, Xhtml.leave_last htag hzero]
  obtain ⟨⟨inner, hin, -⟩, hlinked⟩ := id h.linked
  have helements : elementsIn style.attachmentsFolder o.outer.after rest =
      Xhtml.elementsBehind o.tag ++ elementsIn style.attachmentsFolder o.outer rest :=
    elementsIn_after hlinked hin
  rw [hstep]
  refine .of_elements (h.of_closing rfl rfl hc ?_ ?_) helements ?_
  · show (Xhtml.step style.hardLineBreak s.html (.closing o.tag.closing)).1.image.map _ = _
    rw [hhtml, imagesOpen_of_ne (by rw [hrest]; simp)]
    rfl
  · show (Xhtml.step style.hardLineBreak s.html (.closing o.tag.closing)).1.table.inHead = _
    rw [hhtml]
    exact (inHead_of_inline hinline _).2.symm
  · show Reads _ (Xhtml.step style.hardLineBreak s.html (.closing o.tag.closing)).2 _
    have hat : elementsAt style.attachmentsFolder .markup content o = [] := by
      simp only [elementsAt, hm, Mode.macroBody, if_neg hquote]
      cases ht : o.tag with
      | image destination title => simp only [Xhtml.elementsOf, ht]
      | _ => rw [ht] at htag; cases htag
    rw [hhtml, elementsIn_cons_of_markup hrest, hat, elementsBehind_of_inline hinline]
    exact Xhtml.reads_image i

/-- A closing inside an alternative text is only counted. -/
theorem Follows.closing_in_alternative (context : Context) {content : Content} {o : Opened}
    {rest : List Opened} (h : Follows style ⟨content, o :: rest⟩ s) (hc : s.code = none)
    (hrest : modeInside style.attachmentsFolder (rest.map Opened.tag) = .alternative) :
    Advances style ⟨content, o :: rest⟩ .text ⟨o.outer.after, rest⟩ .text
      (step style context s (.closing o.tag.closing)) := by
  have hne : modeInside style.attachmentsFolder (rest.map Opened.tag) ≠ .markup := by
    rw [hrest]; simp
  have hm : modeInside style.attachmentsFolder (o.tag :: rest.map Opened.tag) = .alternative := by
    rw [modeInside_cons_of_ne hne, hrest]
  obtain ⟨i, himage, hdepth⟩ := h.pendingImage hm
  have hquote := not_quote_of_alternative h.linked hm
  have hplain : (modeInside style.attachmentsFolder (o.tag :: rest.map Opened.tag)).macroBody =
      none := by rw [hm]; rfl
  have hstep : step style context s (.closing o.tag.closing) = _ :=
    step_closing_delegated hc h.frames hplain hquote
  obtain ⟨⟨inner, hin, -⟩, hlinked⟩ := id h.linked
  have htag : o.tag.isInline = true := by
    rw [inline_of_modeInside hlinked hne] at hin
    exact (Content.inside_inline hin).1
  have hhtml : Xhtml.step style.hardLineBreak s.html (.closing o.tag.closing) =
      i.leave s.html o.tag.closing := by simp only [Xhtml.step, himage]
  have hdepth' : i.depth + 1 = (o.tag :: rest.map Opened.tag).countP Tag.isImage := hdepth
  rw [List.countP_cons] at hdepth'
  -- the image around this container stays open
  obtain ⟨hpiece, hcount, htable⟩ :=
    Xhtml.leave_inner himage (image_of_alternative hrest) hdepth'
  have helements : elementsIn style.attachmentsFolder o.outer.after rest =
      Xhtml.elementsBehind o.tag ++ elementsIn style.attachmentsFolder o.outer rest :=
    elementsIn_after hlinked hin
  rw [hstep]
  refine .of_elements (h.of_closing rfl rfl hc ?_ ?_) helements ?_
  · show (Xhtml.step style.hardLineBreak s.html (.closing o.tag.closing)).1.image.map _ = _
    rw [hhtml, hcount, imagesOpen, if_pos hrest]
  · show (Xhtml.step style.hardLineBreak s.html (.closing o.tag.closing)).1.table.inHead = _
    rw [hhtml, htable]
    exact (inHead_of_inline htag _).2.symm
  · show Reads _ (Xhtml.step style.hardLineBreak s.html (.closing o.tag.closing)).2 _
    rw [hhtml, hpiece, elementsBehind_of_inline htag, elementsIn, hrest]
    exact Reads.empty _

/-! ## Attachment macros -/

/-- The writers follow a stream past an event inside a macro, where no elements are opened
or closed. -/
structure Stays (style : Style) (p q : Position) (result : State × String) (piece : String) :
    Prop where
  follows : Follows style q result.1
  mode : modeInside style.attachmentsFolder q.tags = modeInside style.attachmentsFolder p.tags
  elements : elementsIn style.attachmentsFolder q.content q.opened =
    elementsIn style.attachmentsFolder p.content p.opened
  piece : result.2 = piece

theorem elementsIn_cons_inMacro {folder : String} {inner : Content} {o : Opened}
    {rest : List Opened} {kind : ReferenceKind}
    (hm : (modeInside folder (rest.map Opened.tag)).macroBody = some kind) :
    elementsIn folder inner (o :: rest) = elementsIn folder o.outer rest := by
  rw [elementsIn]
  cases hmode : modeInside folder (rest.map Opened.tag) with
  | linkBody => rfl
  | imageBody => rfl
  | _ => rw [hmode] at hm; cases hm

theorem Follows.opening_inMacro (context : Context) {tag : Tag} {content : Content}
    {kind : ReferenceKind} (h : Follows style p s) (hc : s.code = none)
    (hm : (modeInside style.attachmentsFolder p.tags).macroBody = some kind)
    (hin : p.content.inside tag = some content) :
    Stays style p ⟨content, ⟨tag, p.content⟩ :: p.opened⟩
      (step style context s (.opening tag)) "" := by
  obtain ⟨hmarkup, halternative⟩ := macro_ne hm
  have htag : tag.isInline = true := by
    rw [inline_of_modeInside h.linked hmarkup] at hin
    exact (Content.inside_inline hin).1
  have hbody : s.macroBody.isSome := by rw [macroBody_of_frames h.frames, hm]; rfl
  have hstep : step style context (s.suppressing []) (.opening tag) =
      (s.suppressing [tag], "") := step_opening_inMacro hc hbody htag
  have hmode : modeInside style.attachmentsFolder (tag :: p.tags) =
      modeInside style.attachmentsFolder p.tags := modeInside_cons_of_ne hmarkup
  rw [suppressing_nil] at hstep
  rw [hstep]
  refine ⟨h.of_opening hin ?_ ?_ ?_ ?_, hmode, elementsIn_cons_inMacro hm, rfl⟩
  · exact suppressing_frames h.frames (by rw [hm]; rfl)
  · rw [suppressing_code, hc, not_collecting_of_inline htag]
    rfl
  · rw [imagesOpen_of_ne (by rw [hmode]; exact halternative)]
    show s.html.image.map _ = none
    rw [h.no_image halternative]
    rfl
  · exact (inHead_of_inline htag _).1.symm

theorem Follows.closing_inMacro (context : Context) {content : Content} {o : Opened}
    {rest : List Opened} {kind : ReferenceKind} (h : Follows style ⟨content, o :: rest⟩ s)
    (hc : s.code = none)
    (hm : (modeInside style.attachmentsFolder (rest.map Opened.tag)).macroBody = some kind) :
    Stays style ⟨content, o :: rest⟩ ⟨o.outer.after, rest⟩
      (step style context s (.closing o.tag.closing)) "" := by
  obtain ⟨hmarkup, halternative⟩ := macro_ne hm
  obtain ⟨⟨inner, hin, -⟩, hlinked⟩ := id h.linked
  have houter : o.outer = .inline := inline_of_modeInside hlinked hmarkup
  have htag : o.tag.isInline = true := by
    rw [houter] at hin
    exact (Content.inside_inline hin).1
  have hmode : modeInside style.attachmentsFolder (o.tag :: rest.map Opened.tag) =
      modeInside style.attachmentsFolder (rest.map Opened.tag) := modeInside_cons_of_ne hmarkup
  have himage : s.html.image = none := h.no_image (by
    show modeInside _ (o.tag :: rest.map Opened.tag) ≠ _
    rw [hmode]
    exact halternative)
  have hstep : step style context s (.closing o.tag.closing) = _ :=
    step_closing_suppressed context hc h.frames (by rw [hm]; rfl) htag
  rw [hstep]
  refine ⟨h.of_closing rfl rfl hc ?_ ?_, hmode.symm, ?_, rfl⟩
  · rw [imagesOpen_of_ne halternative]
    show s.html.image.map _ = none
    rw [himage]
    rfl
  · exact (inHead_of_inline htag _).2.symm
  · rw [elementsIn_cons_inMacro hm, houter]
    rfl

theorem Follows.leaf_inMacro (context : Context) {e : Event} {kind : ReferenceKind}
    (h : Follows style p s) (hc : s.code = none)
    (hm : (modeInside style.attachmentsFolder p.tags).macroBody = some kind)
    (he : e.isLeaf = true) :
    Stays style p p (step style context s e) (if kind = .link then linkText e else "") := by
  have hbody : s.macroBody = some kind := by rw [macroBody_of_frames h.frames, hm]
  rw [step_leaf_inMacro hc hbody he]
  exact ⟨h, rfl, rfl, rfl⟩

/-- The places a reader can be at in the body of a macro. -/
def InBody : ReferenceKind → Xml.Place → Prop
  | .link, place => ∃ n, place = .section n
  | .image, place => place = .text

theorem reads_attachmentEnd {elements : List (List Char)} {kind : ReferenceKind}
    {place : Xml.Place} (h : InBody kind place) :
    Reads ⟨place, macroElements kind ++ elements⟩ (attachmentEnd kind) ⟨.text, elements⟩ := by
  cases kind with
  | image =>
      obtain rfl : place = .text := h
      exact reads_attachmentEnd_image
  | link =>
      obtain ⟨n, rfl⟩ := h
      exact reads_attachmentEnd_link n

/-- The closing of the image or link that became a macro. -/
theorem Follows.closing_attachment (context : Context) {content : Content} {o : Opened}
    {rest : List Opened} {kind : ReferenceKind} {place : Xml.Place}
    (h : Follows style ⟨content, o :: rest⟩ s) (hc : s.code = none)
    (hrest : modeInside style.attachmentsFolder (rest.map Opened.tag) = .markup)
    (hattached : (tagMode style.attachmentsFolder o.tag).macroBody = some kind)
    (hplace : InBody kind place) :
    Advances style ⟨content, o :: rest⟩ place ⟨o.outer.after, rest⟩ .text
      (step style context s (.closing o.tag.closing)) := by
  obtain ⟨⟨inner, hin, -⟩, hlinked⟩ := id h.linked
  have htag := isInline_of_referenceKind (referenceKind_of_macroBody hattached)
  have hmode : modeInside style.attachmentsFolder (o.tag :: rest.map Opened.tag) ≠
      .alternative := by
    rw [modeInside_cons_of_markup hrest]
    exact (macro_ne hattached).2
  have himage : s.html.image = none := h.no_image hmode
  have helements : elementsIn style.attachmentsFolder o.outer.after rest =
      elementsIn style.attachmentsFolder o.outer rest := by
    rw [elementsIn_after hlinked hin, elementsBehind_of_inline htag]
    rfl
  have hstep : step style context s (.closing o.tag.closing) = _ :=
    step_closing_attachment context hc h.frames hrest hattached
  rw [hstep]
  refine .of_elements (h.of_closing rfl rfl hc ?_ ?_) helements ?_
  · rw [imagesOpen_of_ne (by rw [hrest]; simp)]
    show s.html.image.map _ = none
    rw [himage]
    rfl
  · exact (inHead_of_inline htag _).2.symm
  · rw [elementsIn_cons_of_markup hrest]
    simp only [elementsAt, hattached]
    exact reads_attachmentEnd hplace

/-! ## Along a stream -/

/-- Outside of macros events stand in markup or in an alternative text. -/
theorem markup_or_alternative {mode : Mode} (h : mode.macroBody = none) :
    mode = .markup ∨ mode = .alternative := by
  cases mode with
  | markup => exact Or.inl rfl
  | alternative => exact Or.inr rfl
  | _ => cases h

/-- A closing outside of macros is one in markup, of an image, or of part of an image. -/
theorem Follows.closing (context : Context) {content : Content} {o : Opened}
    {rest : List Opened} (h : Follows style ⟨content, o :: rest⟩ s) (hc : s.code = none)
    (hcomplete : content.complete = true) :
    Follows style ⟨o.outer.after, rest⟩ (step style context s (.closing o.tag.closing)).1 := by
  cases hrest : (modeInside style.attachmentsFolder (rest.map Opened.tag)).macroBody with
  | some kind => exact (h.closing_inMacro context hc hrest).follows
  | none =>
      rcases markup_or_alternative hrest with hm | hm
      · have hmode : modeInside style.attachmentsFolder (o.tag :: rest.map Opened.tag) =
            tagMode style.attachmentsFolder o.tag := modeInside_cons_of_markup hm
        cases hattached : (tagMode style.attachmentsFolder o.tag).macroBody with
        | some kind =>
            obtain ⟨place, hplace⟩ : ∃ place, InBody kind place := by
              cases kind with
              | image => exact ⟨.text, rfl⟩
              | link => exact ⟨.section 0, 0, rfl⟩
            exact (h.closing_attachment context hc hm hattached hplace).follows
        | none =>
            rcases markup_or_alternative hattached with ht | ht
            · exact (h.closing_in_markup context hc (hmode.trans ht) hcomplete).follows
            · exact (h.closing_image context hc (hmode.trans ht) hm).follows
      · exact (h.closing_in_alternative context hc hm).follows

/-- A leaf leaves the open containers as they are, and raw markup is one. -/
theorem Follows.leaf (context : Context) {e : Event} (h : Follows style p s) (hc : s.code = none)
    (he : e.isLeaf = true) : Follows style p (Storage.step style context s e).1 := by
  cases hkind : (modeInside style.attachmentsFolder p.tags).macroBody with
  | some kind => exact (h.leaf_inMacro context hc hkind he).follows
  | none =>
      obtain ⟨himage, htable⟩ := Xhtml.step_leaf_state style.hardLineBreak s.html he
      rw [step_leaf_delegated hc h.frames hkind he]
      exact h.of_leaf rfl rfl himage htable

/-- The writers follow a stream past any of its events. -/
theorem Follows.step (context : Context) {e : Event} (h : Follows style p s)
    (hstep : p.step e = some q) : Follows style q (Storage.step style context s e).1 := by
  by_cases hcollecting : collecting style p.opened = true
  · exact (h.step_collecting context hcollecting hstep).2.2.follows
  · have hc := h.code_eq_none (by simpa using hcollecting)
    cases e with
    | opening tag =>
        obtain ⟨content, hin, rfl⟩ := Position.step_opening hstep
        cases hkind : (modeInside style.attachmentsFolder p.tags).macroBody with
        | some kind => exact (h.opening_inMacro context hc hkind hin).follows
        | none =>
            rcases markup_or_alternative hkind with hm | hm
            · exact (h.opening_in_markup context hc hm hin).follows
            · exact (h.opening_in_alternative context hc hm hin).follows
    | closing c =>
        obtain ⟨o, hcomplete, rfl, hopened, hcontent⟩ := Position.step_closing hstep
        obtain ⟨content, opened⟩ := p
        obtain ⟨content', rest⟩ := q
        obtain rfl : opened = o :: rest := hopened
        obtain rfl : content' = o.outer.after := hcontent
        exact h.closing context hc hcomplete
    | _ =>
        obtain ⟨-, rfl⟩ := Position.step_leaf rfl hstep
        exact h.leaf context hc rfl

theorem Follows.run (context : Context) {es : List Event} (h : Follows style p s)
    (hrun : p.run es = some q) : Follows style q (Storage.run style context s es).1 := by
  induction es generalizing p s with
  | nil =>
      obtain rfl := Option.some.inj hrun
      exact h
  | cons e es ih =>
      rw [Position.run_cons] at hrun
      obtain ⟨mid, hstep, hrest⟩ := Option.bind_eq_some_iff.1 hrun
      rw [run_cons]
      exact ih (h.step context hstep) hrest

end WikiPress.Storage
