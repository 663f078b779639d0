import WikiPress.Proofs.Markup.Trees
import WikiPress.Proofs.Storage.Attachments
import WikiPress.Proofs.Xhtml.Agreement

/-!
# WikiPress.Proofs.Storage.Concatenation

Documents that stand one behind the other are written as each is written alone.

Design points:

* The writer decides by its frames and by the code it collects what to do with an event. It
  either keeps the event from the XHTML writer or passes it on (`keeps_or_passes`), so states
  with the same frames and code differ only as their XHTML writers do (`Agree.step`).
* Behind a document the frames are gone and nothing is being collected. For code under the XHTML
  writer this needs an invariant of its own, because `Follows` does not speak of it
  (`HtmlCode`).
-/

namespace WikiPress.Storage

open WikiPress.Markup
open WikiPress.Attachment (Reference)

variable {style : Style} {context : Context} {p q : Position} {s s' : State} {e : Event}

/-! ## What an event does to the XHTML writer -/

/-- The state with another XHTML writer and other attachments. -/
def State.over (s : State) (html : Xhtml.State) (attachments : List Reference) : State :=
  { s with html, attachments }

/-- A way to take an event keeps it from the XHTML writer: it reads nothing of that writer and
leaves it as it is. -/
def Keeps (take : State → State × String) (s : State) : Prop :=
  ∀ html attachments, ∃ attachments',
    take (s.over html attachments) = ((take s).1.over html attachments', (take s).2)

/-- A way to take an event passes it on to the XHTML writer, and adds what that writer adds. -/
def Passes (style : Style) (e : Event) (take : State → State × String) (s : State) : Prop :=
  ∀ html attachments, take (s.over html attachments) =
    ((take s).1.over (Xhtml.step style.hardLineBreak html e).1 attachments,
      (Xhtml.step style.hardLineBreak html e).2)

section

variable {take take' : State → State × String}

theorem Keeps.html (h : Keeps take s) : (take s).1.html = s.html := by
  obtain ⟨attachments, htake⟩ := h s.html s.attachments
  exact congrArg (fun r => r.1.html) htake

theorem Passes.html (h : Passes style e take s) :
    (take s).1.html = (Xhtml.step style.hardLineBreak s.html e).1 :=
  congrArg (fun r => r.1.html) (h s.html s.attachments)

theorem Passes.piece (h : Passes style e take s) :
    (take s).2 = (Xhtml.step style.hardLineBreak s.html e).2 :=
  congrArg Prod.snd (h s.html s.attachments)

theorem Keeps.congr (h : Keeps take s) (heq : ∀ html attachments,
    take' (s.over html attachments) = take (s.over html attachments)) : Keeps take' s := by
  intro html attachments
  have hself : take' s = take s := heq s.html s.attachments
  obtain ⟨attachments', h⟩ := h html attachments
  exact ⟨attachments', by rw [heq, h, hself]⟩

theorem Passes.congr (h : Passes style e take s) (heq : ∀ html attachments,
    take' (s.over html attachments) = take (s.over html attachments)) :
    Passes style e take' s := by
  intro html attachments
  have hself : take' s = take s := heq s.html s.attachments
  rw [heq, h html attachments, hself]

end

theorem passes_delegate (e : Event) (s : State) : Passes style e (delegate style · e) s :=
  fun _ _ => rfl

theorem keeps_openReference {tag : Tag} {kind : ReferenceKind} {destination : Option String}
    (h : s.macroBody.isSome = true ∨ (s.referenceAt style destination).isSome = true) :
    Keeps (openReference style context · tag kind destination) s := by
  intro html attachments
  have hbody : (s.over html attachments).macroBody = s.macroBody := rfl
  have hreference : (s.over html attachments).referenceAt style destination =
      s.referenceAt style destination := rfl
  by_cases hm : s.macroBody.isSome = true
  · refine ⟨attachments, ?_⟩
    simp only [openReference, hbody, hm, if_true]
    rfl
  · obtain ⟨r, hr⟩ := Option.isSome_iff_exists.1 (h.resolve_left hm)
    refine ⟨r :: attachments, ?_⟩
    simp only [openReference, hbody, hreference, hm, hr]
    rfl

/-- An image or link is kept if it becomes a macro or stands in one. -/
theorem openReference_cases (context : Context) (s : State) (tag : Tag) (kind : ReferenceKind)
    (destination : Option String) :
    Keeps (openReference style context · tag kind destination) s ∨
      Passes style (.opening tag) (openReference style context · tag kind destination) s := by
  by_cases hm : s.macroBody.isSome = true
  · exact Or.inl (keeps_openReference (Or.inl hm))
  · cases hr : s.referenceAt style destination with
    | some r => exact Or.inl (keeps_openReference (Or.inr (by rw [hr]; rfl)))
    | none =>
        right
        intro html attachments
        have hbody : (s.over html attachments).macroBody = s.macroBody := rfl
        have hreference : (s.over html attachments).referenceAt style destination =
            s.referenceAt style destination := rfl
        simp only [openReference, hbody, hreference, hm, hr]
        rfl

theorem closeReference_cases (s : State) (tag : Closing) :
    Keeps (closeReference style · tag) s ∨
      Passes style (.closing tag) (closeReference style · tag) s := by
  have hframes : ∀ html attachments, (s.over html attachments).frames = s.frames :=
    fun _ _ => rfl
  cases hf : s.frames with
  | nil =>
      right
      intro html attachments
      simp only [closeReference, hframes, hf]
      rfl
  | cons frame frames =>
      cases frame with
      | delegated kind =>
          right
          intro html attachments
          simp only [closeReference, hframes, hf]
          rfl
      | attachment kind | suppressed =>
          left
          intro html attachments
          refine ⟨attachments, ?_⟩
          simp only [closeReference, hframes, hf]
          rfl

/-- A block is kept inside of macros, which no document has. -/
theorem plainTag_cases (style : Style) (s : State) (e : Event) :
    (s.macroBody.isSome = true ∧
        Keeps (fun s => if s.macroBody.isSome then (s, "") else delegate style s e) s) ∨
      Passes style e (fun s => if s.macroBody.isSome then (s, "") else delegate style s e) s := by
  have hbody : ∀ html attachments, (s.over html attachments).macroBody = s.macroBody :=
    fun _ _ => rfl
  by_cases hm : s.macroBody.isSome = true
  · refine Or.inl ⟨hm, ?_⟩
    intro html attachments
    refine ⟨attachments, ?_⟩
    simp only [hbody, hm, if_true]
  · right
    intro html attachments
    simp only [hbody, hm]
    rfl

theorem openTag_cases (context : Context) (s : State) (tag : Tag) :
    (Keeps (openTag style context · tag) s ∧
        ((∃ alignments, tag = .table alignments) → s.macroBody.isSome = true)) ∨
      Passes style (.opening tag) (openTag style context · tag) s := by
  cases tag with
  | image destination title =>
      rcases openReference_cases context s (.image destination title) .image (some destination)
        with h | h
      · exact Or.inl ⟨h, by simp⟩
      · exact Or.inr h
  | link kind destination title =>
      rcases openReference_cases context s (.link kind destination title) .link
        (if kind = .email then none else some destination) with h | h
      · exact Or.inl ⟨h, by simp⟩
      · exact Or.inr h
  | codeBlock info =>
      by_cases hlanguage : (info.map Text.firstWord).getD "" = style.diagramLanguage
      · right
        intro html attachments
        simp only [openTag, hlanguage, if_true]
        rfl
      · refine Or.inl ⟨?_, by simp⟩
        intro html attachments
        refine ⟨attachments, ?_⟩
        simp only [openTag, hlanguage]
        rfl
  | blockQuote => exact Or.inl ⟨fun _ attachments => ⟨attachments, rfl⟩, by simp⟩
  | table alignments =>
      rcases plainTag_cases style s (.opening (.table alignments)) with ⟨hm, h⟩ | h
      · exact Or.inl ⟨h, fun _ => hm⟩
      · exact Or.inr h
  | _ =>
      rcases plainTag_cases style s (.opening _) with ⟨-, h⟩ | h
      · exact Or.inl ⟨h, by simp⟩
      · exact Or.inr h

theorem closeTag_cases (s : State) (tag : Closing) :
    Keeps (closeTag style · tag) s ∨ Passes style (.closing tag) (closeTag style · tag) s := by
  cases tag with
  | image | link => exact closeReference_cases s _
  | codeBlock => exact Or.inr (passes_delegate _ s)
  | blockQuote => exact Or.inl fun _ attachments => ⟨attachments, rfl⟩
  | _ =>
      rcases plainTag_cases style s (.closing _) with ⟨-, h⟩ | h
      · exact Or.inl h
      · exact Or.inr h

theorem leaf_cases (s : State) (e : Event) :
    Keeps (leaf style · e) s ∨ Passes style e (leaf style · e) s := by
  have hbody : ∀ html attachments, (s.over html attachments).macroBody = s.macroBody :=
    fun _ _ => rfl
  cases hm : s.macroBody with
  | some kind =>
      left
      intro html attachments
      refine ⟨attachments, ?_⟩
      cases kind <;> simp only [leaf, hbody, hm]
  | none =>
      right
      intro html attachments
      simp only [leaf, hbody, hm]
      rfl

/-- Every event is kept from the XHTML writer or passed on to it, whatever that writer's state
is. A table is kept only inside of code or of a macro. -/
theorem keeps_or_passes (style : Style) (context : Context) (s : State) (e : Event) :
    (Keeps (step style context · e) s ∧ ((∃ alignments, e = .opening (.table alignments)) →
        s.code.isSome = true ∨ s.macroBody.isSome = true)) ∨
      Passes style e (step style context · e) s := by
  have hcode : ∀ html attachments, (s.over html attachments).code = s.code := fun _ _ => rfl
  cases hc : s.code with
  | some code =>
      refine Or.inl ⟨?_, fun _ => Or.inl rfl⟩
      intro html attachments
      refine ⟨attachments, ?_⟩
      simp only [step, hcode, hc]
      cases e with
      | closing c => cases c <;> rfl
      | _ => rfl
  | none =>
      cases e with
      | opening tag =>
          have heq : ∀ html attachments,
              step style context (s.over html attachments) (.opening tag) =
                openTag style context (s.over html attachments) tag := by
            intro html attachments
            simp only [step, hcode, hc]
          rcases openTag_cases context s tag with ⟨h, htable⟩ | h
          · refine Or.inl ⟨h.congr heq, ?_⟩
            rintro ⟨alignments, htag⟩
            exact Or.inr (htable ⟨alignments, Event.opening.inj htag⟩)
          · exact Or.inr (h.congr heq)
      | closing tag =>
          have heq : ∀ html attachments,
              step style context (s.over html attachments) (.closing tag) =
                closeTag style (s.over html attachments) tag := by
            intro html attachments
            simp only [step, hcode, hc]
          rcases closeTag_cases s tag with h | h
          · exact Or.inl ⟨h.congr heq, by simp⟩
          · exact Or.inr (h.congr heq)
      | _ =>
          rcases leaf_cases s _ with h | h
          · exact Or.inl ⟨h.congr fun _ _ => step_leaf hc rfl, by simp⟩
          · exact Or.inr (h.congr fun _ _ => step_leaf hc rfl)

/-! ## States that agree -/

/-- The states agree on everything a document behind them is written by. -/
structure Agree (tags : List Tag) (s s' : State) : Prop where
  frames : s'.frames = s.frames
  code : s'.code = s.code
  html : Xhtml.Agree tags s.html s'.html

theorem Agree.eq_over {tags : List Tag} (h : Agree tags s s') :
    s' = s.over s'.html s'.attachments := by
  obtain ⟨hframes, hcode, -⟩ := h
  cases s'
  simp only [State.over] at hframes hcode ⊢
  rw [hframes, hcode]

/-- A table stands in no code and in no macro. -/
theorem Follows.table_elsewhere {alignments : List ColumnAlignment} (h : Follows style p s)
    (hstep : p.step (.opening (.table alignments)) = some q) :
    ¬ (s.code.isSome = true ∨ s.macroBody.isSome = true) := by
  obtain ⟨content, hinside, -⟩ := Position.step_opening hstep
  obtain ⟨hflow, -⟩ := Content.inside_block hinside rfl (by simp)
  rintro (hcode | hbody)
  · rw [h.code_eq_none (not_collecting_of_ne h.linked (by rw [hflow]; simp))] at hcode
    cases hcode
  · rw [macroBody_of_frames h.frames] at hbody
    have hne : modeInside style.attachmentsFolder p.tags ≠ .markup := by
      intro hm
      rw [hm] at hbody
      cases hbody
    have hinline := inline_of_modeInside h.linked hne
    rw [hflow] at hinline
    cases hinline

theorem Follows.inline_of_image (h : Follows style p s) (himage : s.html.image.isSome) :
    p.content = .inline := by
  have halternative : modeInside style.attachmentsFolder p.tags = .alternative := by
    by_contra hne
    rw [h.no_image hne] at himage
    cases himage
  have hne : modeInside style.attachmentsFolder p.tags ≠ .markup := by
    rw [halternative]
    simp
  exact inline_of_modeInside h.linked hne

/-- The next event adds the same text to states that agree, and they agree behind it. -/
theorem Agree.step (context : Context) (h : Agree p.tags s s') (hfollows : Follows style p s)
    (hstep : p.step e = some q) :
    (Storage.step style context s' e).2 = (Storage.step style context s e).2 ∧
      Agree q.tags (Storage.step style context s e).1 (Storage.step style context s' e).1 := by
  rw [h.eq_over]
  rcases keeps_or_passes style context s e with ⟨hkeeps, htable⟩ | hpasses
  · obtain ⟨attachments, heq⟩ := hkeeps s'.html s'.attachments
    have hhtml : (Storage.step style context s e).1.html = s.html := hkeeps.html
    rw [show Storage.step style context (s.over s'.html s'.attachments) e = _ from heq]
    refine ⟨rfl, rfl, rfl, ?_⟩
    rw [hhtml]
    refine ⟨h.html.image, h.html.code, ?_⟩
    rintro ⟨alignments, hmem⟩
    rcases Xhtml.table_of_step hstep hmem with rfl | hmem
    · exact absurd (htable ⟨alignments, rfl⟩) (hfollows.table_elsewhere hstep)
    · exact h.html.table ⟨alignments, hmem⟩
  · obtain ⟨hpiece, hagree⟩ :=
      h.html.step style.hardLineBreak hfollows.linked hfollows.inline_of_image hstep
    have hhtml : (Storage.step style context s e).1.html =
        (Xhtml.step style.hardLineBreak s.html e).1 := hpasses.html
    rw [show Storage.step style context (s.over s'.html s'.attachments) e = _ from
      hpasses s'.html s'.attachments]
    refine ⟨hpiece.trans hpasses.piece.symm, rfl, rfl, ?_⟩
    rw [hhtml]
    exact hagree

theorem Agree.run (context : Context) {es : List Event} (h : Agree p.tags s s')
    (hfollows : Follows style p s) (hrun : p.run es = some q) :
    (Storage.run style context s' es).2 = (Storage.run style context s es).2 := by
  induction es generalizing p s s' with
  | nil => rfl
  | cons e es ih =>
      rw [Position.run_cons] at hrun
      obtain ⟨mid, hstep, hrest⟩ := Option.bind_eq_some_iff.1 hrun
      obtain ⟨hpiece, hagree⟩ := h.step context hfollows hstep
      rw [run_cons, run_cons, hpiece, ih hagree (hfollows.step context hstep) hrest]

/-! ## Behind a document -/

/-- The XHTML writer collects text for a code block only inside a diagram. -/
def HtmlCode (style : Style) (p : Position) (s : State) : Prop :=
  s.html.code.isSome → ∃ info outer rest, p.opened = ⟨.codeBlock info, outer⟩ :: rest ∧
    languageOf info = style.diagramLanguage

/-- The end of a diagram leaves no code behind. -/
theorem Follows.closing_diagram (context : Context) (h : Follows style p s) {info : Option String}
    {outer : Content} {rest : List Opened} (hopened : p.opened = ⟨.codeBlock info, outer⟩ :: rest)
    (hlanguage : languageOf info = style.diagramLanguage) :
    (Storage.step style context s (.closing .codeBlock)).1.html.code = none := by
  have hlinked := h.linked
  rw [hopened] at hlinked
  have hliteral := literal_of_codeBlock hlinked
  have hcode : s.code = none := by
    refine h.code_eq_none ?_
    rw [hopened]
    simp [collecting, hlanguage]
  have himage : s.html.image = none := by
    cases hi : s.html.image with
    | none => rfl
    | some i =>
        have hinline := h.inline_of_image (by rw [hi]; rfl)
        rw [hliteral] at hinline
        cases hinline
  simp only [Storage.step, hcode, closeTag, delegate, Xhtml.step, himage]
  exact Xhtml.closeTag_codeBlock

/-- Code that is first collected under the XHTML writer is a diagram's. -/
theorem Follows.opening_diagram (context : Context) (h : Follows style p s)
    (hcode : s.html.code = none) (hstep : p.step e = some q)
    (hsome : (Storage.step style context s e).1.html.code.isSome) :
    ∃ info, e = .opening (.codeBlock info) ∧ languageOf info = style.diagramLanguage := by
  rcases keeps_or_passes style context s e with ⟨hkeeps, -⟩ | hpasses
  · have hhtml : (Storage.step style context s e).1.html = s.html := hkeeps.html
    rw [hhtml, hcode] at hsome
    cases hsome
  · have hhtml : (Storage.step style context s e).1.html =
        (Xhtml.step style.hardLineBreak s.html e).1 := hpasses.html
    have hfirst := hsome
    rw [hhtml] at hfirst
    obtain ⟨info, rfl⟩ := Xhtml.codeBlock_of_step style.hardLineBreak hcode hfirst
    refine ⟨info, rfl, ?_⟩
    by_contra hlanguage
    -- then the text would be collected for a macro
    obtain ⟨content, hinside, -⟩ := Position.step_opening hstep
    obtain ⟨hflow, -⟩ := Content.inside_block hinside rfl (by simp)
    have hnone : s.code = none :=
      h.code_eq_none (not_collecting_of_ne h.linked (by rw [hflow]; simp))
    rw [step_opening_code context hnone hlanguage, hcode] at hsome
    cases hsome

theorem HtmlCode.step (context : Context) (h : HtmlCode style p s) (hfollows : Follows style p s)
    (hstep : p.step e = some q) : HtmlCode style q (Storage.step style context s e).1 := by
  intro hsome
  cases hcode : s.html.code with
  | none =>
      obtain ⟨info, rfl, hlanguage⟩ := hfollows.opening_diagram context hcode hstep hsome
      obtain ⟨content, -, rfl⟩ := Position.step_opening hstep
      exact ⟨info, p.content, p.opened, rfl, hlanguage⟩
  | some code =>
      obtain ⟨info, outer, rest, hopened, hlanguage⟩ := h (by rw [hcode]; rfl)
      cases e with
      | opening tag =>
          have hlinked := hfollows.linked
          rw [hopened] at hlinked
          obtain ⟨content, hinside, -⟩ := Position.step_opening hstep
          rw [literal_of_codeBlock hlinked] at hinside
          cases hinside
      | closing c =>
          obtain ⟨o, -, rfl, hopened', -⟩ := Position.step_closing hstep
          rw [hopened] at hopened'
          obtain ⟨rfl, -⟩ := List.cons.inj hopened'
          have hclosed := hfollows.closing_diagram context hopened hlanguage
          rw [Tag.closing, hclosed] at hsome
          cases hsome
      | _ =>
          obtain ⟨-, rfl⟩ := Position.step_leaf rfl hstep
          exact ⟨info, outer, rest, hopened, hlanguage⟩

theorem HtmlCode.run (context : Context) {es : List Event} (h : HtmlCode style p s)
    (hfollows : Follows style p s) (hrun : p.run es = some q) :
    HtmlCode style q (Storage.run style context s es).1 := by
  induction es generalizing p s with
  | nil =>
      obtain rfl := Option.some.inj hrun
      exact h
  | cons e es ih =>
      rw [Position.run_cons] at hrun
      obtain ⟨mid, hstep, hrest⟩ := Option.bind_eq_some_iff.1 hrun
      rw [run_cons]
      exact ih (h.step context hfollows hstep) (hfollows.step context hstep) hrest

/-- Behind a document the writer is where it was in front of it, but for a table that is over
and the attachments it has met. -/
theorem agree_of_wellShaped (style : Style) (context : Context) {es : List Event}
    (h : WellShaped es) : Agree [] .start (run style context .start es).1 := by
  have hfollows : Follows style .top (run style context .start es).1 :=
    (follows_start style).run context h
  have hcode : HtmlCode style .top .start := by
    intro hsome
    cases hsome
  have hhtml : (run style context .start es).1.html.code = none := by
    cases hc : (run style context .start es).1.html.code with
    | none => rfl
    | some code =>
        obtain ⟨info, outer, rest, hopened, -⟩ :=
          hcode.run context (follows_start style) h (by rw [hc]; rfl)
        cases hopened
  have himage : (run style context .start es).1.html.image = none :=
    hfollows.no_image (by simp [modeInside, Position.tags, Position.top])
  refine ⟨hfollows.frames, hfollows.code_eq_none rfl, himage, hhtml, ?_⟩
  rintro ⟨alignments, hmem⟩
  cases hmem

/-- **Nothing leaks from one document into the next.** If two streams have the shape of
documents, then in every style and context the page of both, one behind the other, has the body
of the first with that of the second behind it, less its table of contents, and the attachments
of the first followed by those of the second. The XHTML of both is the one's followed by the
other's. -/
theorem write_append (style : Style) (context : Context) (hardLineBreak : Bool)
    (as bs : List Event) (has : WellShaped as) (hbs : WellShaped bs) :
    let page := write style context
    (∃ text, (page bs).body = tableOfContents ++ text ∧
        (page (as ++ bs)).body = (page as).body ++ text) ∧
      (page (as ++ bs)).attachments = (page as).attachments ++ (page bs).attachments ∧
      Xhtml.render hardLineBreak (as ++ bs) =
        Xhtml.render hardLineBreak as ++ Xhtml.render hardLineBreak bs := by
  intro page
  have hagree := agree_of_wellShaped style context has
  have hpieces : (run style context (run style context .start as).1 bs).2 =
      (run style context .start bs).2 :=
    hagree.run (p := .top) context (follows_start style) hbs
  have hfollows : Follows style .top (run style context .start as).1 :=
    (follows_start style).run context has
  have hmet := hfollows.attachments_run context hbs
  have halone := (follows_start style).attachments_run context hbs
  refine ⟨⟨String.join (run style context .start bs).2, rfl, ?_⟩, ?_, ?_⟩
  · show tableOfContents ++ String.join (run style context .start (as ++ bs)).2 = _
    rw [run_append, hpieces, String.join_append, ← String.append_assoc]
    rfl
  · show (run style context .start (as ++ bs)).1.attachments.reverse =
      (run style context .start as).1.attachments.reverse ++
        (run style context .start bs).1.attachments.reverse
    rw [run_append, hmet, halone, List.reverse_append, List.reverse_append, List.reverse_reverse]
    rfl
  · exact Xhtml.render_append hardLineBreak has.balanced hbs

/-- A table with alignments, a diagram and an attached image, and behind them another image
and a table without alignments. -/
theorem write_append_documents :
    let table (alignment : ColumnAlignment) : Block (List Inline) :=
      .table [alignment] [[.text "head"]] [[[.text "cell"]]]
    let as := Document.events [table .center, .code (some "mermaid") ["graph"],
      .paragraph [.image "a.png" "" [.text "a"]]]
    let bs := Document.events [.quote [.paragraph [.image "b.png" "" [.softBreak]]],
      table .unset]
    let page := write {} {}
    (∃ text, (page bs).body = tableOfContents ++ text ∧
        (page (as ++ bs)).body = (page as).body ++ text) ∧
      (page (as ++ bs)).attachments =
        [⟨"a.png", "a.png", .current⟩, ⟨"b.png", "b.png", .current⟩] ∧
      Xhtml.render false (as ++ bs) = Xhtml.render false as ++ Xhtml.render false bs := by
  intro table as bs page
  obtain ⟨hbody, hattachments, hrender⟩ :=
    write_append {} {} false as bs (wellShaped_events _) (wellShaped_events _)
  refine ⟨hbody, hattachments.trans ?_, hrender⟩
  decide +kernel

end WikiPress.Storage
