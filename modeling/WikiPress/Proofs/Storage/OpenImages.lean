import WikiPress.Proofs.Storage.Concatenation

/-!
# WikiPress.Proofs.Storage.OpenImages

What the two writers hold of the open images and links.

The storage writer has a stack with a frame for each of them; the XHTML writer counts the images
that it was told of and knows of no links. The two stay in step.

Design points:

* The frames are those of the open tags, so what they look like is read off the mode inside the
  tags: links in markup, images and links in an alternative text, and one macro with suppressed
  frames above it and links below it inside a macro (`framesInside_of_macro`).
* While an alternative text is collected, every event is handed on to the XHTML writer
  (`Follows.step_alternative`). So no macro is opened or closed there.
-/

namespace WikiPress.Storage

open WikiPress.Markup

/-- Whether a frame is that of an attachment macro. -/
def Frame.isAttachment : Frame → Bool
  | .attachment _ => true
  | _ => false

/-- The frames of the storage writer and the image of the XHTML writer fit together. -/
structure InStep (s : State) : Prop where
  /-- At most one macro is open. -/
  single : s.frames.countP Frame.isAttachment ≤ 1
  /-- What is opened in a macro is suppressed, and a macro is opened in links only. -/
  around : ∀ above kind below, s.frames = above ++ .attachment kind :: below →
    (∀ frame ∈ above, frame = .suppressed) ∧ ∀ frame ∈ below, frame = .delegated .link
  /-- An alternative text is collected exactly inside an image left to the XHTML writer. -/
  pending : s.html.image.isSome ↔ .delegated .image ∈ s.frames
  /-- The images inside the one that is collected for are counted. -/
  depth : ∀ i, s.html.image = some i → i.depth + 1 = s.frames.count (.delegated .image)
  /-- No macro is open then. -/
  apart : s.html.image.isSome → ∀ kind, .attachment kind ∉ s.frames

/-! ## The frames of the open tags -/

section Frames

variable {folder : String} {tag : Tag} {outer tags : List Tag}

/-- What is outside of macros was opened outside of macros. -/
theorem macroBody_of_cons (h : (modeInside folder (tag :: outer)).macroBody = none) :
    (modeInside folder outer).macroBody = none := by
  by_cases hm : modeInside folder outer = .markup
  · rw [hm]
    rfl
  · rw [modeInside_cons_of_ne hm] at h
    exact h

/-- Outside of macros an image or link has been left to the XHTML writer. -/
theorem frameOf_of_plain {kind : ReferenceKind}
    (h : (modeInside folder (tag :: outer)).macroBody = none) :
    frameOf folder (modeInside folder outer) tag kind = .delegated kind := by
  have houter := macroBody_of_cons h
  cases hm : modeInside folder outer with
  | markup =>
      rw [modeInside_cons_of_markup hm] at h
      simp [frameOf, h]
  | alternative => rfl
  | linkBody | imageBody =>
      rw [hm] at houter
      cases houter

/-- Outside of macros there is a frame for each image and link, and none of a macro. -/
theorem framesInside_of_plain (h : (modeInside folder tags).macroBody = none) :
    framesInside folder tags = (tags.filterMap referenceKind).map .delegated := by
  induction tags with
  | nil => rfl
  | cons tag outer ih =>
      have hrest := ih (macroBody_of_cons h)
      cases hk : referenceKind tag with
      | none => rw [framesInside_cons_of_none hk, hrest, List.filterMap_cons_none hk]
      | some kind =>
          rw [framesInside_cons_of_kind hk, frameOf_of_plain h, hrest,
            List.filterMap_cons_some hk, List.map_cons]

/-- In markup all of them are links. -/
theorem framesInside_of_markup (h : modeInside folder tags = .markup) :
    ∀ frame ∈ framesInside folder tags, frame = .delegated .link := by
  intro frame hframe
  rw [framesInside_of_plain (by rw [h]; rfl)] at hframe
  obtain ⟨kind, hkind, rfl⟩ := List.mem_map.1 hframe
  obtain ⟨tag, htag, hk⟩ := List.mem_filterMap.1 hkind
  have himage := not_image_of_markup h tag htag
  cases tag with
  | image destination title => cases himage
  | link linkKind destination title =>
      obtain rfl := Option.some.inj hk
      rfl
  | _ => cases hk

/-- Outside of macros the images have a frame each. -/
theorem count_framesInside (h : (modeInside folder tags).macroBody = none) :
    (framesInside folder tags).count (.delegated .image) = tags.countP Tag.isImage := by
  rw [framesInside_of_plain h]
  induction tags with
  | nil => rfl
  | cons tag outer ih =>
      have hrest := ih (macroBody_of_cons h)
      rw [List.countP_cons, ← hrest]
      cases tag with
      | image destination title => simp [referenceKind, Tag.isImage]
      | link kind destination title => simp [referenceKind, Tag.isImage]
      | _ => rfl

/-- Inside a macro there is its frame, with suppressed ones above it and links below it. -/
theorem framesInside_of_macro {kind : ReferenceKind}
    (h : (modeInside folder tags).macroBody = some kind) :
    ∃ above below, framesInside folder tags = above ++ .attachment kind :: below ∧
      (∀ frame ∈ above, frame = .suppressed) ∧ ∀ frame ∈ below, frame = .delegated .link := by
  induction tags with
  | nil => cases h
  | cons tag outer ih =>
      by_cases hm : modeInside folder outer = .markup
      · -- the innermost tag has become the macro
        rw [modeInside_cons_of_markup hm] at h
        refine ⟨[], framesInside folder outer, ?_, by simp, framesInside_of_markup hm⟩
        rw [framesInside_cons_of_kind (referenceKind_of_macroBody h), hm, frameOf,
          if_pos (by rw [h]; rfl)]
        rfl
      · rw [modeInside_cons_of_ne hm] at h
        obtain ⟨above, below, hframes, habove, hbelow⟩ := ih h
        cases hk : referenceKind tag with
        | none =>
            exact ⟨above, below, by rw [framesInside_cons_of_none hk, hframes], habove, hbelow⟩
        | some kind' =>
            have hframe : frameOf folder (modeInside folder outer) tag kind' = .suppressed := by
              cases hmode : modeInside folder outer with
              | linkBody | imageBody => rfl
              | markup | alternative =>
                  rw [hmode] at h
                  cases h
            refine ⟨.suppressed :: above, below, ?_, ?_, hbelow⟩
            · rw [framesInside_cons_of_kind hk, hframe, hframes]
              rfl
            · exact List.forall_mem_cons.2 ⟨rfl, habove⟩

end Frames

/-- Two lists split at the only entry with a property are split alike. -/
theorem split_unique {α : Type} {P : α → Prop} {above above' below below' : List α} {a a' : α}
    (heq : above ++ a :: below = above' ++ a' :: below') (ha : P a) (ha' : P a')
    (habove : ∀ x ∈ above, ¬ P x) (hbelow : ∀ x ∈ below, ¬ P x) :
    above = above' ∧ a = a' ∧ below = below' := by
  rcases List.append_eq_append_iff.1 heq with ⟨between, rfl, hrest⟩ | ⟨between, rfl, hrest⟩
  · cases between with
    | nil =>
        obtain ⟨rfl, rfl⟩ := List.cons.inj hrest
        simp
    | cons x between =>
        -- then the other entry would be below the first one
        obtain ⟨-, rfl⟩ := List.cons.inj hrest
        exact absurd ha' (hbelow a' (by simp))
  · cases between with
    | nil =>
        obtain ⟨rfl, rfl⟩ := List.cons.inj hrest
        simp
    | cons x between =>
        obtain ⟨rfl, -⟩ := List.cons.inj hrest
        exact absurd ha' (habove a' (by simp))

/-! ## The writers in step -/

variable {style : Style} {context : Context} {p q : Position} {s : State} {e : Event}

theorem Follows.pending_iff (h : Follows style p s) :
    s.html.image.isSome ↔ modeInside style.attachmentsFolder p.tags = .alternative := by
  have himage : (s.html.image.map fun i => i.depth + 1).isSome =
      (imagesOpen style.attachmentsFolder p.tags).isSome := congrArg Option.isSome h.image
  rw [Option.isSome_map] at himage
  rw [himage, imagesOpen]
  split
  · next hm => simp [hm]
  · next hm => simp [hm]

/-- Outside of macros no frame is that of one. -/
theorem Follows.not_attachment (h : Follows style p s)
    (hm : (modeInside style.attachmentsFolder p.tags).macroBody = none) :
    ∀ kind, .attachment kind ∉ s.frames := by
  intro kind hmem
  rw [h.frames, framesInside_of_plain hm] at hmem
  obtain ⟨_, -, hframe⟩ := List.mem_map.1 hmem
  cases hframe

/-- Wherever the writers follow a stream, what they hold fits together. -/
theorem Follows.inStep (h : Follows style p s) : InStep s := by
  have hpending : s.html.image.isSome ↔ .delegated .image ∈ s.frames := by
    have hin := inDelegatedImage_of_frames h.frames
    rw [State.inDelegatedImage] at hin
    rw [h.pending_iff, ← List.contains_iff_mem, hin, decide_eq_true_iff]
  cases hkind : (modeInside style.attachmentsFolder p.tags).macroBody with
  | none =>
      have hnone := h.not_attachment hkind
      have hcount : s.frames.countP Frame.isAttachment = 0 := by
        rw [List.countP_eq_zero]
        intro frame hframe
        cases frame with
        | attachment kind => exact absurd hframe (hnone kind)
        | _ => simp [Frame.isAttachment]
      refine ⟨by omega, ?_, hpending, ?_, fun _ => hnone⟩
      · intro above kind below hframes
        exact absurd (by simp [hframes]) (hnone kind)
      · intro i himage
        obtain ⟨i', himage', hdepth⟩ := h.pendingImage (h.pending_iff.1 (by rw [himage]; rfl))
        obtain rfl := Option.some.inj (himage.symm.trans himage')
        rw [hdepth, h.frames, count_framesInside hkind]
  | some kind =>
      have hnone : s.html.image = none := h.no_image (macro_ne hkind).2
      obtain ⟨above, below, hsplit, habove, hbelow⟩ := framesInside_of_macro hkind
      rw [← h.frames] at hsplit
      -- neither above nor below is there another macro
      have habove' : ∀ frame ∈ above, ¬ frame.isAttachment = true := by
        intro frame hframe
        rw [habove frame hframe]
        simp [Frame.isAttachment]
      have hbelow' : ∀ frame ∈ below, ¬ frame.isAttachment = true := by
        intro frame hframe
        rw [hbelow frame hframe]
        simp [Frame.isAttachment]
      refine ⟨?_, ?_, hpending, by simp [hnone], by simp [hnone]⟩
      · rw [hsplit, List.countP_append, List.countP_cons, List.countP_eq_zero.2 habove',
          List.countP_eq_zero.2 hbelow']
        simp [Frame.isAttachment]
      · intro above' kind' below' hframes
        obtain ⟨rfl, -, rfl⟩ := split_unique (P := fun frame => frame.isAttachment = true)
          (hsplit.symm.trans hframes) rfl rfl habove' hbelow'
        exact ⟨habove, hbelow⟩

/-- While an alternative text is collected, an event goes to the XHTML writer, and outside of
macros it stays. -/
theorem Follows.step_alternative (context : Context) (h : Follows style p s)
    (hm : modeInside style.attachmentsFolder p.tags = .alternative) (hstep : p.step e = some q) :
    Storage.step style context s e = delegate style
        { s with frames := framesInside style.attachmentsFolder q.tags } e ∧
      (modeInside style.attachmentsFolder q.tags).macroBody = none := by
  have hne : modeInside style.attachmentsFolder p.tags ≠ .markup := by rw [hm]; simp
  have hplain : (modeInside style.attachmentsFolder p.tags).macroBody = none := by rw [hm]; rfl
  have hinline : p.content = .inline := inline_of_modeInside h.linked hne
  have hc : s.code = none :=
    h.code_eq_none (not_collecting_of_ne h.linked (by rw [hinline]; simp))
  cases e with
  | opening tag =>
      obtain ⟨content, hin, rfl⟩ := Position.step_opening hstep
      rw [hinline] at hin
      obtain ⟨htag, -⟩ := Content.inside_inline hin
      have hdelegable : Delegable style (modeInside style.attachmentsFolder p.tags)
          (.opening tag) := by
        refine delegable_opening ?_ ?_ fun hmarkup => absurd hmarkup hne
        · rintro rfl
          cases htag
        · rintro info rfl
          cases htag
      refine ⟨step_opening_delegated hc h.frames hplain hdelegable, ?_⟩
      show (modeInside style.attachmentsFolder (tag :: p.tags)).macroBody = none
      rw [modeInside_cons_of_ne hne, hplain]
  | closing c =>
      obtain ⟨o, -, rfl, hopened, -⟩ := Position.step_closing hstep
      have htags : p.tags = o.tag :: q.tags := by rw [Position.tags, hopened]; rfl
      have hframes := h.frames
      have hlinked := h.linked
      rw [hopened] at hlinked
      rw [htags] at hframes hm hplain
      have hquote : o.tag ≠ .blockQuote := not_quote_of_alternative hlinked hm
      exact ⟨step_closing_delegated hc hframes hplain hquote, macroBody_of_cons hplain⟩
  | _ =>
      obtain ⟨-, rfl⟩ := Position.step_leaf rfl hstep
      refine ⟨?_, hplain⟩
      rw [step_leaf_delegated hc h.frames hplain rfl, ← h.frames]

/-- **The writers agree on the open images.** At every point of a stream with the shape of a
document, in every style and context: at most one attachment macro is open, what is open inside
it is suppressed and what is open around it are links left to the XHTML writer; that writer
collects an alternative text exactly inside an image that was left to it, counts the images
inside that one, and no macro is open then. So while it collects, an event opens and closes no
macro and adds what the XHTML writer makes of it. Behind the stream no frame is left, and neither
an image nor code is pending. -/
theorem writers_in_step (style : Style) (context : Context) (es : List Event)
    (hshape : WellShaped es) :
    (∀ before after, es = before ++ after → InStep (run style context .start before).1) ∧
      (∀ before e after, es = before ++ e :: after →
        let s := (run style context .start before).1
        let next := step style context s e
        s.html.image.isSome →
          (∀ kind, .attachment kind ∉ s.frames) ∧ (∀ kind, .attachment kind ∉ next.1.frames) ∧
            next.1.attachments = s.attachments ∧
            next.2 = (Xhtml.step style.hardLineBreak s.html e).2) ∧
      let last := (run style context .start es).1
      last.frames = [] ∧ last.html.image = none ∧ last.html.code = none ∧ last.code = none := by
  refine ⟨?_, ?_, ?_⟩
  · rintro before after rfl
    obtain ⟨p, hbefore, -⟩ := hshape.split
    exact ((follows_start style).run context hbefore).inStep
  · rintro before e after rfl s next hpending
    obtain ⟨p, q, -, hstep, -, hfollows⟩ := follows_of_wellShaped style context hshape
    have hm := hfollows.pending_iff.1 hpending
    obtain ⟨hnext, hplain⟩ := hfollows.step_alternative context hm hstep
    have hafter : Follows style q next.1 := hfollows.step context hstep
    refine ⟨hfollows.inStep.apart hpending, hafter.not_attachment hplain, ?_, ?_⟩
    · show (step style context s e).1.attachments = _
      rw [hnext]
      rfl
    · show (step style context s e).2 = _
      rw [hnext]
      rfl
  · intro last
    have hagree := agree_of_wellShaped style context hshape
    exact ⟨hagree.frames, hagree.html.image, hagree.html.code, hagree.code⟩

/-- An attached image in a link that is none, with an image in its text, and behind it an image
that is none with a link that names a file in its alternative text. -/
theorem writers_in_step_nested :
    let es := enclose .paragraph
      (enclose (.link .inline "https://example.com" "")
          (enclose (.image "a.png" "") (enclose (.image "b.png" "") [.text "b"])) ++
        enclose (.image "https://example.com/o.png" "")
          (enclose (.link .inline "c.pdf" "") [.text "c"]))
    let inMacro := (run {} {} .start (es.take 4)).1
    let inImage := (run {} {} .start (es.take 10)).1
    (inMacro.frames = [.suppressed, .attachment .image, .delegated .link] ∧ InStep inMacro) ∧
      (inImage.frames = [.delegated .link, .delegated .image] ∧ InStep inImage) ∧
      (run {} {} .start es).1.frames = [] := by
  intro es inMacro inImage
  obtain ⟨hpoint, -, hlast, -⟩ := writers_in_step {} {} es (by decide)
  refine ⟨⟨by decide +kernel, ?_⟩, ⟨by decide +kernel, ?_⟩, hlast⟩
  · exact hpoint (es.take 4) (es.drop 4) (List.take_append_drop 4 es).symm
  · exact hpoint (es.take 10) (es.drop 10) (List.take_append_drop 10 es).symm

end WikiPress.Storage
