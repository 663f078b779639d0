import WikiPress.Markup.Document
import WikiPress.Proofs.Storage.Frames
import WikiPress.Proofs.Xml.Section

/-!
# WikiPress.Proofs.Storage.LinkBody

The plain text body of an attachment link, read back.

Design points:

* A rewritten link is written as its macro around the text of its events, and nothing of
  the markup inside (`run_attachmentLink`).
* Each event is escaped on its own, while one section spans them all. The body is the text
  of the events in pieces, and what is known about pieces decides what a reader gets
  (`Xml.Severed`).
-/

namespace WikiPress.Storage

open WikiPress.Markup
open WikiPress.Attachment (Reference)
open WikiPress.Xml (Severed behind readPlainElement readPlainElement_map_cdataChars
  sectionStart terminator)

/-- Whether an event belongs to the running text of a link. A closing is what its opening
is. -/
def spans : Event → Bool
  | .opening tag => tag.isInline
  | .closing _ | .text _ | .code _ | .inlineHtml _ | .softBreak | .hardBreak => true
  | _ => false

/-- The text an event stands for in a plain text body. -/
def literal : Event → List Char
  | .text t | .code t | .inlineHtml t => t.toList
  | .softBreak | .hardBreak => ['\n']
  | _ => []

variable {style : Style} {context : Context} {s : State} {tags : List Tag}

/-! ## Events inside a link -/

theorem step_leaf_inLink {e : Event} (hc : s.code = none) (hm : s.macroBody = some .link)
    (he : e.isLeaf = true) :
    step style context (s.suppressing tags) e = (s.suppressing tags, linkText e) := by
  have hc' : (s.suppressing tags).code = none := hc
  have hm' : (s.suppressing tags).macroBody = some .link := by rw [suppressing_macroBody, hm]
  exact step_leaf_inMacro hc' hm' he

/-- Running text inside an attachment link leaves its text, and no tag of it. -/
theorem run_inLink {after : List Tag} {es : List Event} (hc : s.code = none)
    (hm : s.macroBody = some .link) (htags : ∀ t ∈ tags, t.isInline = true)
    (hspans : ∀ e ∈ es, spans e = true) (h : nest tags es = some after) :
    run style context (s.suppressing tags) es = (s.suppressing after, es.map linkText) := by
  induction es generalizing tags with
  | nil =>
      obtain rfl := Option.some.inj h
      rfl
  | cons e es ih =>
      rw [nest_cons] at h
      obtain ⟨mid, hfirst, hrest⟩ := Option.bind_eq_some_iff.1 h
      have hsome : s.macroBody.isSome := by rw [hm]; rfl
      have he := hspans e List.mem_cons_self
      have hes : ∀ e ∈ es, spans e = true := fun e hmem => hspans e (List.mem_cons_of_mem _ hmem)
      have hone : step style context (s.suppressing tags) e = (s.suppressing mid, linkText e) ∧
          ∀ t ∈ mid, t.isInline = true := by
        cases e with
        | opening tag =>
            obtain rfl := Option.some.inj hfirst
            exact ⟨step_opening_inMacro hc hsome he, List.forall_mem_cons.2 ⟨he, htags⟩⟩
        | closing c =>
            obtain ⟨tag, rfl, rfl⟩ := nestStep_closing hfirst
            rw [List.forall_mem_cons] at htags
            exact ⟨step_closing_inMacro hc hsome htags.1, htags.2⟩
        | _ =>
            obtain rfl := Option.some.inj hfirst
            exact ⟨step_leaf_inLink hc hm rfl, htags⟩
      rw [run_cons, hone.1, ih hone.2 hes hrest, List.map_cons]

/-! ## The body -/

/-- The part of an attachment link in front of its body. -/
def linkHead (r : Reference) (page : Option String) : String :=
  "<ac:link>" ++ ("<ri:attachment ri:filename=\"" ++ Xml.escape r.filename ++ "\">" ++
    (page.map pageReference).getD "") ++ "</ri:attachment>"

/-- The state inside an attachment link. -/
def State.inLink (s : State) (r : Reference) : State :=
  { s with frames := .attachment .link :: s.frames, attachments := r :: s.attachments }

/-- A link that names an attachment is written as the macro around the text of its events,
and leaves nothing but the attachment behind. -/
theorem run_attachmentLink {kind : LinkKind} {destination title : String} {inside : List Event}
    {r : Reference} (hc : s.code = none) (hm : s.macroBody = none) (hkind : kind ≠ .email)
    (hr : s.referenceAt style (some destination) = some r) (hinside : Balanced inside)
    (hspans : ∀ e ∈ inside, spans e = true) :
    run style context s (enclose (.link kind destination title) inside) =
      ({ s with attachments := r :: s.attachments },
        attachmentStart .link r.filename (ownerTitle context r.directory) ::
          (inside.map linkText ++ [attachmentEnd .link])) := by
  have hopen : step style context s (.opening (.link kind destination title)) =
      (s.inLink r, attachmentStart .link r.filename (ownerTitle context r.directory)) := by
    have hstep : step style context s (.opening (.link kind destination title)) =
        openTag style context s (.link kind destination title) := by
      rw [step, hc]
    rw [hstep, openTag, if_neg hkind, openReference, hm, hr]
    rfl
  have hbody : run style context ((s.inLink r).suppressing []) inside =
      ((s.inLink r).suppressing [], inside.map linkText) :=
    run_inLink hc rfl (by simp) hspans (balanced_iff_nest.1 hinside)
  rw [suppressing_nil] at hbody
  have hclose : step style context (s.inLink r) (.closing .link) =
      ({ s with attachments := r :: s.attachments }, attachmentEnd .link) := by
    have hstep : step style context (s.inLink r) (.closing .link) =
        closeTag style (s.inLink r) .link := by
      rw [step, State.inLink, hc]
    rw [hstep]
    rfl
  rw [enclose, List.cons_append, run_cons, hopen, run_append, hbody, run_cons, Tag.closing, hclose]
  rfl

/-- What an event adds to the body is the text it stands for, escaped on its own. -/
theorem toList_linkText (e : Event) : (linkText e).toList = cdataChars (literal e) := by
  cases e with
  | text t | code t | inlineHtml t => simp [linkText, literal, cdata]
  | softBreak | hardBreak => decide
  | _ => rfl

theorem toList_join_linkText (es : List Event) :
    (String.join (es.map linkText)).toList = ((es.map literal).map cdataChars).flatten := by
  simp only [String.toList_join, List.map_map, Function.comp_def, List.flatMap_def, toList_linkText]

/-- What an attachment link is written as: its head, its body as an element of its own, and
its end. -/
theorem toList_attachmentLink {kind : LinkKind} {destination title : String}
    {inside : List Event} {r : Reference} (hc : s.code = none) (hm : s.macroBody = none)
    (hkind : kind ≠ .email) (hr : s.referenceAt style (some destination) = some r)
    (hinside : Balanced inside) (hspans : ∀ e ∈ inside, spans e = true) (rest : List Char) :
    (String.join (run style context s (enclose (.link kind destination title) inside)).2).toList
        ++ rest =
      (linkHead r (ownerTitle context r.directory)).toList ++
        (("<" ++ "ac:plain-text-link-body" ++ ">").toList ++
          (sectionStart ++ (((inside.map literal).map cdataChars).flatten ++
            (terminator ++ (("</" ++ "ac:plain-text-link-body" ++ ">").toList ++
              ("</ac:link>".toList ++ rest)))))) := by
  rw [run_attachmentLink hc hm hkind hr hinside hspans]
  have hend : (attachmentEnd .link).toList =
      terminator ++ (("</" ++ "ac:plain-text-link-body" ++ ">").toList ++ "</ac:link>".toList) := by
    decide
  have hstart : (attachmentStart .link r.filename (ownerTitle context r.directory)).toList =
      (linkHead r (ownerTitle context r.directory)).toList ++
        (("<" ++ "ac:plain-text-link-body" ++ ">").toList ++ sectionStart) := by
    have hcut : "</ri:attachment><ac:plain-text-link-body><![CDATA[".toList =
        "</ri:attachment>".toList ++
          (("<" ++ "ac:plain-text-link-body" ++ ">").toList ++ sectionStart) := by
      decide
    simp only [attachmentStart, linkHead, String.toList_append, hcut, List.append_assoc]
  have hbody := toList_join_linkText inside
  rw [String.toList_join] at hbody
  simp only [String.toList_join, List.flatMap_cons, List.flatMap_append, List.flatMap_nil,
    hstart, hend, hbody, List.append_assoc, List.append_nil]

/-- **The text of an attachment link is read back exactly where no terminator is severed.**
Behind the head of the macro stands an element whose sections hold the text of the events,
with a newline for each break, and behind the element the macro ends. Only a terminator that
lies across two events is not escaped, and then the element is read as something else. -/
theorem read_linkBody_iff (style : Style) (context : Context) (s : State) (kind : LinkKind)
    (destination title : String) (inside : List Event) (r : Reference) (rest : List Char)
    (hc : s.code = none) (hm : s.macroBody = none) (hkind : kind ≠ .email)
    (hr : s.referenceAt style (some destination) = some r) (hinside : Balanced inside)
    (hspans : ∀ e ∈ inside, spans e = true) :
    let written := run style context s (enclose (.link kind destination title) inside)
    (behind (linkHead r (ownerTitle context r.directory)).toList
          ((String.join written.2).toList ++ rest)).bind
        (readPlainElement "ac:plain-text-link-body") =
        some (inside.flatMap literal, "</ac:link>".toList ++ rest) ↔
      ¬ Severed (inside.map literal) := by
  intro written
  rw [toList_attachmentLink hc hm hkind hr hinside hspans, Xml.behind_append, Option.bind_some,
    List.flatMap_def]
  exact readPlainElement_map_cdataChars _ _ _

/-- The two brackets of a code span and the `>` behind it are no text any more. -/
theorem read_linkBody_severed :
    let inside : List Event := [.code "]]", .text ">"]
    let written := run {} { isIndex := true } .start (enclose (.link .inline "notes.txt" "") inside)
    (behind (linkHead ⟨"notes.txt", "notes.txt", .current⟩ none).toList
          ((String.join written.2).toList ++ [])).bind
        (readPlainElement "ac:plain-text-link-body") ≠
      some (inside.flatMap literal, "</ac:link>".toList ++ []) := by
  intro inside written h
  have hsevered : Severed (inside.map literal) := by
    refine ⟨[[']', ']']], [['>']], rfl, ?_⟩
    exact Xml.straddles_iff.2 (Or.inr ⟨List.suffix_rfl, List.prefix_rfl⟩)
  have hr : State.start.referenceAt {} (some "notes.txt") =
      some ⟨"notes.txt", "notes.txt", .current⟩ := by
    decide +kernel
  exact (read_linkBody_iff {} { isIndex := true } .start .inline "notes.txt" "" inside _ []
    rfl rfl (by simp) hr (by decide) (by simp [inside, spans])).1 h hsevered

end WikiPress.Storage
