import WikiPress.Proofs.Xhtml.Elements

/-!
# WikiPress.Proofs.Xhtml.Tracking

What the XHTML writer remembers at a point of a stream, by the containers that are open there.

Design points:

* The stream only has to be nested. The writer counts the images that are open, and nothing
  else of what stands inside one (`Tracks.image`).
* Text is collected for a code block only inside one that was opened outside of all images
  (`Tracks.code`). The converse fails: a code block inside another ends the collecting for both.
* Behind a balanced stream neither an image nor a code block is left (`Tracks.image_eq_none`,
  `Tracks.code_eq_none`).
-/

namespace WikiPress.Xhtml

open WikiPress.Markup

/-- How many images the writer takes to be open. -/
def State.imageCount (s : State) : Nat := (s.image.map fun i => i.depth + 1).getD 0

/-- The writer's state fits the open tags, innermost first. -/
structure Tracks (tags : List Tag) (s : State) : Prop where
  image : s.imageCount = tags.countP Tag.isImage
  code : s.code.isSome → ∃ info outer, Tag.codeBlock info :: outer <:+ tags ∧
    ∀ tag ∈ outer, tag.isImage = false

variable {tags after : List Tag} {s : State} {i : PendingImage}

theorem tracks_start : Tracks [] .start := by
  refine ⟨rfl, ?_⟩
  intro h
  cases h

theorem imageCount_of_none (h : s.image = none) : s.imageCount = 0 := by
  rw [State.imageCount, h]
  rfl

theorem imageCount_of_some (h : s.image = some i) : s.imageCount = i.depth + 1 := by
  rw [State.imageCount, h]
  rfl

/-- Where no image is open, the writer waits for the end of none. -/
theorem Tracks.image_eq_none (h : Tracks tags s) (houter : ∀ tag ∈ tags, tag.isImage = false) :
    s.image = none := by
  have hzero : tags.countP Tag.isImage = 0 := by
    rw [List.countP_eq_zero]
    intro tag htag
    simp [houter tag htag]
  have hcount := h.image
  cases himage : s.image with
  | none => rfl
  | some i =>
      rw [imageCount_of_some himage, hzero] at hcount
      cases hcount

/-- While the writer waits for the end of no image, none is open. -/
theorem Tracks.not_image (h : Tracks tags s) (himage : s.image = none) :
    ∀ tag ∈ tags, tag.isImage = false := by
  have hcount := h.image
  rw [imageCount_of_none himage] at hcount
  intro tag htag
  simpa using List.countP_eq_zero.1 hcount.symm tag htag

/-- Where no code block is open, no text is collected for one. -/
theorem Tracks.code_eq_none (h : Tracks tags s) (houter : ∀ info, Tag.codeBlock info ∉ tags) :
    s.code = none := by
  cases hcode : s.code with
  | none => rfl
  | some code =>
      obtain ⟨info, outer, hsuffix, -⟩ := h.code (by rw [hcode]; rfl)
      exact absurd (hsuffix.subset List.mem_cons_self) (houter info)

/-! ## One event -/

theorem enter_depth (i : PendingImage) (tag : Tag) :
    (i.enter tag).depth = i.depth + if tag.isImage = true then 1 else 0 := by
  cases tag <;> rfl

theorem openTag_code {tag : Tag} (h : ∀ info, tag ≠ .codeBlock info) :
    (openTag s tag).1.code = s.code := by
  cases tag with
  | codeBlock info => exact absurd rfl (h info)
  | _ => rfl

theorem closeTag_code {tag : Tag} (h : ∀ info, tag ≠ .codeBlock info) :
    (closeTag s tag.closing).1.code = s.code := by
  cases tag with
  | codeBlock info => exact absurd rfl (h info)
  | _ => rfl

theorem closeTag_codeBlock : (closeTag s .codeBlock).1.code = none := by
  cases h : s.code <;> simp [closeTag, h]

theorem leave_code (c : Closing) : (i.leave s c).1.code = s.code := by
  cases c with
  | image => cases h : i.depth <;> simp [PendingImage.leave, h]
  | _ => rfl

theorem step_leaf_code (hardLineBreak : Bool) (s : State) {e : Event} (he : e.isLeaf = true) :
    (step hardLineBreak s e).1.code.isSome = s.code.isSome := by
  cases e with
  | opening tag => cases he
  | closing c => cases he
  | text t => cases hcode : s.code <;> cases himage : s.image <;> simp [step, hcode, himage]
  | code t | softBreak => cases himage : s.image <;> simp [step, himage]
  | _ => rfl

/-- Text is first collected for a code block where one is opened. -/
theorem codeBlock_of_step (hardLineBreak : Bool) {e : Event} (hs : s.code = none)
    (h : (step hardLineBreak s e).1.code.isSome) : ∃ info, e = .opening (.codeBlock info) := by
  by_contra hnone
  have hcode : (step hardLineBreak s e).1.code.isSome = s.code.isSome := by
    cases e with
    | opening tag =>
        cases himage : s.image with
        | some i => simp only [step, himage]
        | none =>
            have htag : ∀ info, tag ≠ .codeBlock info := fun info heq => hnone ⟨info, by rw [heq]⟩
            simp only [step, himage, openTag_code htag]
    | closing c =>
        cases himage : s.image with
        | some i => simp only [step, himage, leave_code]
        | none =>
            cases c with
            | codeBlock => simp only [step, himage, closeTag_codeBlock, hs]
            | _ => simp only [step, himage, closeTag]
    | _ => exact step_leaf_code hardLineBreak s rfl
  rw [hcode, hs] at h
  cases h

/-- One more tag around what is open keeps the code block text is collected for. -/
theorem Tracks.opening (h : Tracks tags s) (hardLineBreak : Bool) (tag : Tag) :
    Tracks (tag :: tags) (step hardLineBreak s (.opening tag)).1 := by
  have hkept : s.code.isSome → ∃ info outer, Tag.codeBlock info :: outer <:+ tag :: tags ∧
      ∀ tag ∈ outer, tag.isImage = false := by
    intro hsome
    obtain ⟨info, outer, hsuffix, houter⟩ := h.code hsome
    exact ⟨info, outer, hsuffix.trans (List.suffix_cons tag tags), houter⟩
  have hcount := h.image
  cases himage : s.image with
  | some i =>
      have hstep : (step hardLineBreak s (.opening tag)).1 =
          { s with image := some (i.enter tag) } := by simp only [step, himage]
      rw [hstep]
      refine ⟨?_, hkept⟩
      rw [imageCount_of_some himage] at hcount
      show (i.enter tag).depth + 1 = _
      rw [enter_depth, List.countP_cons, ← hcount]
      omega
  | none =>
      have hstep : (step hardLineBreak s (.opening tag)).1 = (openTag s tag).1 := by
        simp only [step, himage]
      rw [hstep]
      rw [imageCount_of_none himage] at hcount
      constructor
      · rw [List.countP_cons, ← hcount]
        by_cases htag : tag.isImage = true
        · cases tag with
          | image source title => rfl
          | _ => cases htag
        · rw [imageCount_of_none ((openTag_image (by simpa using htag)).trans himage), if_neg htag]
      · by_cases hblock : ∃ info, tag = .codeBlock info
        · obtain ⟨info, rfl⟩ := hblock
          intro _
          exact ⟨info, tags, List.suffix_refl _, h.not_image himage⟩
        · rw [openTag_code fun info heq => hblock ⟨info, heq⟩]
          exact hkept

/-- One tag fewer around what is open keeps it, too, unless it was that code block's. -/
theorem Tracks.closing {tag : Tag} (h : Tracks (tag :: tags) s) (hardLineBreak : Bool) :
    Tracks tags (step hardLineBreak s (.closing tag.closing)).1 := by
  have hcount := h.image
  rw [List.countP_cons] at hcount
  cases himage : s.image with
  | some i =>
      have hstep : (step hardLineBreak s (.closing tag.closing)).1 = (i.leave s tag.closing).1 := by
        simp only [step, himage]
      rw [imageCount_of_some himage] at hcount
      rw [hstep]
      constructor
      · by_cases hlast : tags.countP Tag.isImage = 0
        · -- the closing is that of the outermost image
          have htag : tag.isImage = true := by
            by_contra hnot
            rw [if_neg hnot] at hcount
            omega
          rw [if_pos htag] at hcount
          rw [leave_last htag (by omega), hlast]
          rfl
        · obtain ⟨-, hinner, -⟩ := leave_inner himage (Nat.one_le_iff_ne_zero.2 hlast) hcount
          rw [State.imageCount, hinner]
          rfl
      · rw [leave_code]
        intro hsome
        obtain ⟨info, outer, hsuffix, houter⟩ := h.code hsome
        rcases List.suffix_cons_iff.1 hsuffix with heq | hsuffix
        · -- then no image would be open
          obtain ⟨rfl, rfl⟩ := List.cons.inj heq
          have hnone : s.image = none := h.image_eq_none (by simpa [Tag.isImage] using houter)
          rw [himage] at hnone
          cases hnone
        · exact ⟨info, outer, hsuffix, houter⟩
  | none =>
      have hstep : (step hardLineBreak s (.closing tag.closing)).1 =
          (closeTag s tag.closing).1 := by simp only [step, himage]
      rw [imageCount_of_none himage] at hcount
      rw [hstep]
      constructor
      · rw [imageCount_of_none ((closeTag_image s _).trans himage)]
        omega
      · by_cases hblock : ∃ info, tag = .codeBlock info
        · obtain ⟨info, rfl⟩ := hblock
          have hnone : (closeTag s (Tag.codeBlock info).closing).1.code = none := closeTag_codeBlock
          rw [hnone]
          intro hsome
          cases hsome
        · rw [closeTag_code fun info heq => hblock ⟨info, heq⟩]
          intro hsome
          obtain ⟨info, outer, hsuffix, houter⟩ := h.code hsome
          rcases List.suffix_cons_iff.1 hsuffix with heq | hsuffix
          · exact absurd ⟨info, (List.cons.inj heq).1.symm⟩ hblock
          · exact ⟨info, outer, hsuffix, houter⟩

/-! ## Along a stream -/

theorem Tracks.step {e : Event} (h : Tracks tags s) (hardLineBreak : Bool)
    (hnest : nestStep tags e = some after) : Tracks after (Xhtml.step hardLineBreak s e).1 := by
  cases e with
  | opening tag =>
      obtain rfl := Option.some.inj hnest
      exact h.opening hardLineBreak tag
  | closing c =>
      obtain ⟨tag, rfl, rfl⟩ := nestStep_closing hnest
      exact h.closing hardLineBreak
  | _ =>
      obtain rfl := Option.some.inj hnest
      constructor
      · rw [State.imageCount, (step_leaf_state hardLineBreak s rfl).1]
        exact h.image
      · rw [step_leaf_code hardLineBreak s rfl]
        exact h.code

theorem Tracks.run {es : List Event} (h : Tracks tags s) (hardLineBreak : Bool)
    (hnest : nest tags es = some after) : Tracks after (Xhtml.run hardLineBreak s es).1 := by
  induction es generalizing tags s with
  | nil =>
      obtain rfl := Option.some.inj hnest
      exact h
  | cons e es ih =>
      rw [nest_cons] at hnest
      obtain ⟨mid, hstep, hrest⟩ := Option.bind_eq_some_iff.1 hnest
      rw [run_cons]
      exact ih (h.step hardLineBreak hstep) hrest

end WikiPress.Xhtml
