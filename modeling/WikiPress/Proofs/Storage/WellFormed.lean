import WikiPress.Proofs.Storage.Follows
import WikiPress.Proofs.Storage.LinkBody

/-!
# WikiPress.Proofs.Storage.WellFormed

The body of a page is well-formed.

Design points:

* The proof goes along the stream, event by event (`Reached.step`). In front of each event
  the reader has the elements of the open containers open, and is in text; only inside an
  attachment link it is in a section.
* How far the section of a link has come depends on the text since the link was opened,
  which may have come in many pieces (`InLinkBody`). A terminator across two pieces would
  end it, and such a terminator is one of the text of the whole body.
-/

namespace WikiPress.Storage

open WikiPress.Markup
open WikiPress.Xml (Reader Reads WellFormed bracketsFrom terminator)

/-- What stands inside an attachment link of a stream. -/
def IsLinkBody (folder : String) (es inside : List Event) : Prop :=
  ∃ before tag after, es = before ++ (enclose tag inside ++ after) ∧ Balanced inside ∧
    modeInside folder (openTags before) = .markup ∧ tagMode folder tag = .linkBody

/-- What has been written of a body behind some events. -/
def written (style : Style) (context : Context) (es : List Event) : String :=
  tableOfContents ++ String.join (run style context .start es).2

/-- A stream has come some way into an attachment link, and a reader with it: the place is
the one the text since the opening leads to. -/
def InLinkBody (folder : String) (es : List Event) (place : Xml.Place) : Prop :=
  ∃ before tag inside extra, es = before ++ .opening tag :: inside ∧
    modeInside folder (openTags before) = .markup ∧ tagMode folder tag = .linkBody ∧
    nest [] inside = some extra ∧ openTags es = extra ++ tag :: openTags before ∧
    place = .section (bracketsFrom 0 (inside.flatMap literal))

/-- Behind some events, the writers follow the stream and the reader the body. -/
structure Reached (style : Style) (context : Context) (es : List Event) (p : Position)
    (place : Xml.Place) : Prop where
  tags : openTags es = p.tags
  follows : Follows style p (run style context .start es).1
  reads : Reads .start (written style context es)
    ⟨place, elementsIn style.attachmentsFolder p.content p.opened⟩
  text : modeInside style.attachmentsFolder p.tags ≠ .linkBody → place = .text
  body : modeInside style.attachmentsFolder p.tags = .linkBody →
    InLinkBody style.attachmentsFolder es place

variable {style : Style} {context : Context} {p q : Position} {place place' : Xml.Place}

theorem reached_start (style : Style) (context : Context) :
    Reached style context [] .top .text := by
  refine ⟨rfl, follows_start style, ?_, fun _ => rfl, fun h => by cases h⟩
  have hempty : written style context [] = tableOfContents := by
    simp [written, String.join]
  rw [hempty]
  show Reads .start tableOfContents .start
  decide +kernel

theorem written_append_run (style : Style) (context : Context) (before after : List Event) :
    written style context (before ++ after) = written style context before ++
      String.join (run style context (run style context .start before).1 after).2 := by
  simp only [written, run_append, String.join_append, String.append_assoc]

theorem written_append (style : Style) (context : Context) (es : List Event) (e : Event) :
    written style context (es ++ [e]) =
      written style context es ++ (step style context (run style context .start es).1 e).2 := by
  simp only [written, run_append, run_cons, run_nil, String.join_append, String.append_assoc]
  simp [String.join_cons]

theorem run_append_singleton (style : Style) (context : Context) (s : State) (es : List Event)
    (e : Event) :
    (run style context s (es ++ [e])).1 = (step style context (run style context s es).1 e).1 := by
  rw [run_append, run_cons, run_nil]

/-! ## Inside a link -/

/-- The text of one more event keeps the section of a link open. -/
theorem InLinkBody.step {folder : String} {before after : List Event} {e : Event}
    (h : InLinkBody folder before place) (hbalanced : Balanced (before ++ e :: after))
    (hlinks : ∀ inside, IsLinkBody folder (before ++ e :: after) inside →
      ¬ terminator <:+: inside.flatMap literal)
    (hmode : modeInside folder (openTags (before ++ [e])) ≠ .markup) :
    ∃ place', InLinkBody folder (before ++ [e]) place' ∧
      ∀ elements, Reads ⟨place, elements⟩ (linkText e) ⟨place', elements⟩ := by
  obtain ⟨outer, tag, inside, extra, rfl, houter, htag, hnest, hopen, rfl⟩ := h
  have hrest : nest (extra ++ tag :: openTags outer) (e :: after) = some [] := by
    have hwhole := balanced_iff_nest.1 hbalanced
    rw [nest_append] at hwhole
    obtain ⟨tags, hbefore, hafter⟩ := Option.bind_eq_some_iff.1 hwhole
    rw [← openTagsFrom_of_nest hbefore] at hafter
    rw [← hopen]
    exact hafter
  obtain ⟨more, behind, heq, hmore⟩ := exists_closing hrest
  cases more with
  | nil =>
      -- The link would be closed by this event.
      obtain ⟨rfl, rfl⟩ := List.cons.inj heq
      obtain rfl := Option.some.inj hmore
      rw [openTags_append_singleton, hopen] at hmode
      exact absurd houter hmode
  | cons e' more =>
      obtain ⟨rfl, rfl⟩ := List.cons.inj heq
      rw [nest_cons] at hmore
      obtain ⟨extra', hstep, hmore⟩ := Option.bind_eq_some_iff.1 hmore
      have hinside : IsLinkBody folder (outer ++ .opening tag :: inside ++
          e :: (more ++ .closing tag.closing :: behind)) (inside ++ e :: more) := by
        refine ⟨outer, tag, behind, by simp [enclose], ?_, houter, htag⟩
        rw [balanced_iff_nest, nest_append, hnest, Option.bind_some, nest_cons, hstep]
        exact hmore
      have hfree : ¬ terminator <:+: inside.flatMap literal ++ literal e := by
        intro hwithin
        refine hlinks _ hinside (hwithin.trans ?_)
        rw [List.flatMap_append, List.flatMap_cons, ← List.append_assoc]
        exact (List.prefix_append _ _).isInfix
      refine ⟨.section (bracketsFrom 0 (inside.flatMap literal ++ literal e)), ?_, ?_⟩
      · refine ⟨outer, tag, inside ++ [e], extra', by simp, houter, htag, ?_, ?_, ?_⟩
        · rw [nest_append, hnest, Option.bind_some, nest_cons, hstep]
          rfl
        · rw [openTags_append_singleton, hopen]
          have hframe := nest_frame (tag :: openTags outer)
            (show nest extra [e] = some extra' by rw [nest_cons, hstep]; rfl)
          exact openTagsFrom_of_nest hframe
        · simp
      · intro elements
        unfold Reads
        rw [toList_linkText]
        exact Reader.read_cdataChars_of_not_isInfix elements hfree

/-! ## Along a stream -/

theorem Reached.of_advances {es : List Event} {e : Event} (h : Reached style context es p place)
    (hq : openTags (es ++ [e]) = q.tags)
    (ha : Advances style p place q place' (step style context (run style context .start es).1 e))
    (htext : modeInside style.attachmentsFolder q.tags ≠ .linkBody → place' = .text)
    (hbody : modeInside style.attachmentsFolder q.tags = .linkBody →
      InLinkBody style.attachmentsFolder (es ++ [e]) place') :
    Reached style context (es ++ [e]) q place' := by
  refine ⟨hq, ?_, ?_, htext, hbody⟩
  · rw [run_append_singleton]
    exact ha.follows
  · rw [written_append]
    exact h.reads.append ha.reads

/-- An event inside a macro, which leaves its text if the macro is a link. -/
theorem Reached.of_stays {es after : List Event} {e : Event} {kind : ReferenceKind}
    (h : Reached style context es p place) (hq : openTags (es ++ [e]) = q.tags)
    (hs : Stays style p q (step style context (run style context .start es).1 e)
      (if kind = .link then linkText e else ""))
    (hkind : (modeInside style.attachmentsFolder p.tags).macroBody = some kind)
    (hbalanced : Balanced (es ++ e :: after))
    (hlinks : ∀ inside, IsLinkBody style.attachmentsFolder (es ++ e :: after) inside →
      ¬ terminator <:+: inside.flatMap literal) :
    ∃ place', Reached style context (es ++ [e]) q place' := by
  have hmode := hs.mode
  cases kind with
  | image =>
      have himage : modeInside style.attachmentsFolder p.tags = .imageBody := by
        cases hm : modeInside style.attachmentsFolder p.tags <;> rw [hm] at hkind <;>
          first | rfl | cases hkind
      have hplace : place = .text := h.text (by rw [himage]; simp)
      refine ⟨place, h.of_advances hq (.of_elements hs.follows hs.elements ?_) (fun _ => hplace) ?_⟩
      · rw [hs.piece]
        exact Reads.empty _
      · intro hlink
        rw [hmode, himage] at hlink
        cases hlink
  | link =>
      have hlink : modeInside style.attachmentsFolder p.tags = .linkBody := by
        cases hm : modeInside style.attachmentsFolder p.tags <;> rw [hm] at hkind <;>
          first | rfl | cases hkind
      have hinside : modeInside style.attachmentsFolder (openTags (es ++ [e])) ≠ .markup := by
        rw [hq, hmode, hlink]
        simp
      -- inside a link body the reader counts the brackets behind it
      obtain ⟨place', hbody, hreads⟩ := (h.body hlink).step hbalanced hlinks hinside
      refine ⟨place', h.of_advances hq (.of_elements hs.follows hs.elements ?_) ?_ fun _ => hbody⟩
      · rw [hs.piece]
        exact hreads _
      · intro hne
        exact absurd (hmode.trans hlink) hne

theorem Reached.text_of_none {es : List Event} (h : Reached style context es p place)
    (hm : (modeInside style.attachmentsFolder p.tags).macroBody = none) : place = .text := by
  refine h.text fun hlink => ?_
  rw [hlink] at hm
  cases hm

section

variable {es after : List Event}

/-- An image or link may open a macro here; what is opened inside one is dropped. -/
theorem Reached.opening {tag : Tag} (h : Reached style context es p place)
    (hc : (run style context .start es).1.code = none) (hstep : p.step (.opening tag) = some q)
    (hq : openTags (es ++ [.opening tag]) = q.tags)
    (hbalanced : Balanced (es ++ .opening tag :: after))
    (hlinks : ∀ inside, IsLinkBody style.attachmentsFolder (es ++ .opening tag :: after) inside →
      ¬ terminator <:+: inside.flatMap literal) :
    ∃ place', Reached style context (es ++ [.opening tag]) q place' := by
  obtain ⟨content, hin, rfl⟩ := Position.step_opening hstep
  cases hkind : (modeInside style.attachmentsFolder p.tags).macroBody with
  | some kind =>
      have hs := h.follows.opening_inMacro context hc hkind hin
      refine h.of_stays hq ?_ hkind hbalanced hlinks
      cases kind with
      | link => exact hs
      | image => exact hs
  | none =>
      obtain rfl := h.text_of_none hkind
      rcases markup_or_alternative hkind with hm | hm
      · refine ⟨_, h.of_advances hq (h.follows.opening_in_markup context hc hm hin) ?_ ?_⟩
        · intro hne
          cases hmode : modeInside style.attachmentsFolder (tag :: p.tags) with
          | linkBody => exact absurd hmode hne
          | _ => rfl
        -- a link body starts here, with nothing in it yet
        · intro hlink
          have hlink' : modeInside style.attachmentsFolder (tag :: p.tags) = .linkBody := hlink
          have htag : tagMode style.attachmentsFolder tag = .linkBody := by
            rw [modeInside_cons_of_markup hm] at hlink'
            exact hlink'
          refine ⟨es, tag, [], [], rfl, ?_, htag, rfl, ?_, ?_⟩
          · rw [h.tags]
            exact hm
          · rw [hq, h.tags]
            rfl
          · rw [hlink']
            rfl
      · have hmode : modeInside style.attachmentsFolder (tag :: p.tags) = .alternative := by
          rw [modeInside_cons_of_ne (by rw [hm]; simp), hm]
        refine ⟨_, h.of_advances hq (h.follows.opening_in_alternative context hc hm hin)
          (fun _ => rfl) fun hlink => ?_⟩
        exact absurd (hmode.symm.trans hlink) (by simp)

/-- A macro may close here. -/
theorem Reached.closing {c : Closing} (h : Reached style context es p place)
    (hc : (run style context .start es).1.code = none) (hstep : p.step (.closing c) = some q)
    (hq : openTags (es ++ [.closing c]) = q.tags)
    (hbalanced : Balanced (es ++ .closing c :: after))
    (hlinks : ∀ inside, IsLinkBody style.attachmentsFolder (es ++ .closing c :: after) inside →
      ¬ terminator <:+: inside.flatMap literal) :
    ∃ place', Reached style context (es ++ [.closing c]) q place' := by
  obtain ⟨o, hcomplete, rfl, hopened, hcontent⟩ := Position.step_closing hstep
  obtain ⟨content, rest⟩ := q
  obtain rfl : content = o.outer.after := hcontent
  obtain ⟨content, opened⟩ := p
  obtain rfl : opened = o :: rest := hopened
  cases hrest : (modeInside style.attachmentsFolder (rest.map Opened.tag)).macroBody with
  | some kind =>
      have hs := h.follows.closing_inMacro context hc hrest
      refine h.of_stays hq ?_ (hs.mode ▸ hrest) hbalanced hlinks
      cases kind with
      | link => exact hs
      | image => exact hs
  | none =>
      -- what is behind a closing outside of macros is no link body
      have hbehind : modeInside style.attachmentsFolder (rest.map Opened.tag) ≠ .linkBody := by
        intro hlink
        rw [hlink] at hrest
        cases hrest
      suffices ha : Advances style ⟨content, o :: rest⟩ place ⟨o.outer.after, rest⟩ .text
          (Storage.step style context (run style context .start es).1 (.closing o.tag.closing)) from
        ⟨.text, h.of_advances hq ha (fun _ => rfl) fun hlink => absurd hlink hbehind⟩
      rcases markup_or_alternative hrest with hm | hm
      · have hmode : modeInside style.attachmentsFolder (o.tag :: rest.map Opened.tag) =
            tagMode style.attachmentsFolder o.tag := modeInside_cons_of_markup hm
        cases hattached : (tagMode style.attachmentsFolder o.tag).macroBody with
        | some kind =>
            refine h.follows.closing_attachment context hc hm hattached ?_
            cases kind with
            | image =>
                refine h.text fun hlink => ?_
                have htag : tagMode style.attachmentsFolder o.tag = .linkBody :=
                  hmode.symm.trans hlink
                rw [htag] at hattached
                cases hattached
            | link =>
                have hlink : modeInside style.attachmentsFolder (o.tag :: rest.map Opened.tag) =
                    .linkBody := by
                  rw [hmode]
                  cases ht : tagMode style.attachmentsFolder o.tag <;> rw [ht] at hattached <;>
                    first | rfl | cases hattached
                obtain ⟨_, _, _, _, -, -, -, -, -, hplace⟩ := h.body hlink
                exact ⟨_, hplace⟩
        | none =>
            obtain rfl := h.text_of_none (hmode ▸ hattached)
            rcases markup_or_alternative hattached with ht | ht
            · exact h.follows.closing_in_markup context hc (hmode.trans ht) hcomplete
            · exact h.follows.closing_image context hc (hmode.trans ht) hm
      · have hmode : modeInside style.attachmentsFolder (o.tag :: rest.map Opened.tag) =
            .alternative := by
          rw [modeInside_cons_of_ne (by rw [hm]; simp), hm]
        obtain rfl : place = .text := h.text (by
          show modeInside style.attachmentsFolder (o.tag :: rest.map Opened.tag) ≠ _
          rw [hmode]; simp)
        exact h.follows.closing_in_alternative context hc hm

theorem Reached.leaf {e : Event} (h : Reached style context es p place)
    (hc : (run style context .start es).1.code = none) (he : e.isLeaf = true)
    (hraw : e.isRaw = false) (hq : openTags (es ++ [e]) = p.tags)
    (hbalanced : Balanced (es ++ e :: after))
    (hlinks : ∀ inside, IsLinkBody style.attachmentsFolder (es ++ e :: after) inside →
      ¬ terminator <:+: inside.flatMap literal) :
    ∃ place', Reached style context (es ++ [e]) p place' := by
  cases hkind : (modeInside style.attachmentsFolder p.tags).macroBody with
  | some kind =>
      exact h.of_stays hq (h.follows.leaf_inMacro context hc hkind he) hkind hbalanced hlinks
  | none =>
      obtain rfl := h.text_of_none hkind
      refine ⟨_, h.of_advances hq (h.follows.leaf_delegated context hc hkind he hraw)
        (fun _ => rfl) fun hlink => ?_⟩
      rw [hlink] at hkind
      cases hkind

/-- The reader follows the body past one more event. -/
theorem Reached.step {e : Event} (h : Reached style context es p place)
    (hstep : p.step e = some q) (hq : openTags (es ++ [e]) = q.tags) (hraw : e.isRaw = false)
    (hbalanced : Balanced (es ++ e :: after))
    (hlinks : ∀ inside, IsLinkBody style.attachmentsFolder (es ++ e :: after) inside →
      ¬ terminator <:+: inside.flatMap literal) :
    ∃ place', Reached style context (es ++ [e]) q place' := by
  by_cases hcollecting : collecting style p.opened = true
  · obtain ⟨hp, hm, ha⟩ := h.follows.step_collecting context hcollecting hstep
    obtain rfl : place = .text := h.text (by rw [hp]; simp)
    exact ⟨.text, h.of_advances hq ha (fun _ => rfl) fun hlink =>
      absurd (hm.symm.trans hlink) (by simp)⟩
  · have hc := h.follows.code_eq_none (by simpa using hcollecting)
    cases e with
    | opening tag => exact h.opening hc hstep hq hbalanced hlinks
    | closing c => exact h.closing hc hstep hq hbalanced hlinks
    | _ =>
        obtain ⟨-, rfl⟩ := Position.step_leaf rfl hstep
        exact h.leaf hc rfl hraw hq hbalanced hlinks

end

/-- Wherever a stream with the shape of a document is cut, the reader has come along. -/
theorem reached_of_wellShaped (context : Context) {es before after : List Event}
    (hes : es = before ++ after)
    (hshape : WellShaped es) (hraw : ∀ e ∈ es, e.isRaw = false)
    (hlinks : ∀ inside, IsLinkBody style.attachmentsFolder es inside →
      ¬ terminator <:+: inside.flatMap literal) :
    ∃ p place, Position.top.run before = some p ∧ Reached style context before p place := by
  induction before using List.reverseRecOn generalizing after with
  | nil => exact ⟨.top, .text, rfl, reached_start style context⟩
  | append_singleton before e ih =>
      rw [List.append_assoc, List.singleton_append] at hes
      obtain ⟨p, place, hrun, hreached⟩ := ih hes
      subst hes
      have hshape' : WellShaped (before ++ [e] ++ after) := by
        rw [List.append_assoc]
        exact hshape
      obtain ⟨q, hrun', -, htags⟩ := hshape'.split
      have hstep : p.step e = some q := by
        rw [Position.run_append, hrun] at hrun'
        have hone : (p.step e).bind (·.run []) = some q := hrun'
        obtain ⟨q', hstep, hq⟩ := Option.bind_eq_some_iff.1 hone
        obtain rfl : q' = q := Option.some.inj hq
        exact hstep
      obtain ⟨place', hnext⟩ := hreached.step hstep htags (hraw e (by simp)) hshape.balanced hlinks
      exact ⟨q, place', hrun', hnext⟩

/-- **The body is well-formed.** It is so for every stream that has the shape of a document,
holds no raw markup and puts no terminator into the text of an attachment link, in every
style and context. Tags match, values and text are escaped, and the sections close where
the writer closes them: behind any of the events a reader is in a section exactly if it is
in the body of an attachment link, and behind the content of a code macro, whatever it is,
the reader has not left the section yet. -/
theorem write_wellFormed (style : Style) (context : Context) (es : List Event)
    (hshape : WellShaped es) (hraw : ∀ e ∈ es, e.isRaw = false)
    (hlinks : ∀ inside, IsLinkBody style.attachmentsFolder es inside →
      ¬ terminator <:+: inside.flatMap literal) :
    WellFormed (write style context es).body ∧
      (∀ before after, es = before ++ after →
        ∃ r, Reads .start (written style context before) r ∧
          ((∃ n, r.place = .section n) ↔
            modeInside style.attachmentsFolder (openTags before) = .linkBody)) ∧
      ∀ elements content, ∃ n,
        Reads ⟨.section 0, elements⟩ (cdata content) ⟨.section n, elements⟩ := by
  refine ⟨?_, ?_, fun elements content => Reads.cdata elements content⟩
  · obtain ⟨p, place, hrun, h⟩ := reached_of_wellShaped context (List.append_nil es).symm hshape
      hraw hlinks
    obtain rfl : Position.top = p := Option.some.inj (hshape.symm.trans hrun)
    obtain rfl : place = .text := h.text (by simp [Position.top, Position.tags, modeInside])
    exact h.reads
  · intro before after hes
    obtain ⟨p, place, -, h⟩ := reached_of_wellShaped context hes hshape hraw hlinks
    refine ⟨_, h.reads, ?_⟩
    rw [h.tags]
    constructor
    · rintro ⟨n, hn⟩
      by_contra hne
      rw [h.text hne] at hn
      cases hn
    · intro hlink
      obtain ⟨_, _, _, _, -, -, -, -, -, hplace⟩ := h.body hlink
      exact ⟨_, hplace⟩

/-- The text of a link is part of the text of the stream. -/
theorem IsLinkBody.isInfix {folder : String} {es inside : List Event}
    (h : IsLinkBody folder es inside) : inside.flatMap literal <:+: es.flatMap literal := by
  obtain ⟨before, tag, after, rfl, -⟩ := h
  refine ⟨before.flatMap literal, after.flatMap literal, ?_⟩
  simp [enclose, literal]

/-- A tip with an attachment link, and a table behind it. -/
theorem write_wellFormed_tip_and_table :
    let es :=
      enclose .blockQuote (enclose .paragraph
        (enclose (.link .inline "notes.txt" "") [.text "a]]", .softBreak, .code "<b>"])) ++
      enclose (.table []) (enclose .tableHead (enclose .tableCell [.text "&"]) ++
        enclose .tableRow (enclose .tableCell (enclose (.image "a.png" "") [.hardBreak])))
    WellFormed (write {} {} es).body := by
  intro es
  have hfree : ¬ terminator <:+: es.flatMap literal := by decide
  exact (write_wellFormed {} {} es (by decide) (by decide)
    fun inside h hwithin => hfree (hwithin.trans h.isInfix)).1

end WikiPress.Storage
