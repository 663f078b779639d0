import WikiPress.Proofs.Xml.Escaped
import WikiPress.Storage.Writer

/-!
# WikiPress.Proofs.Storage.PageContext

What of a page depends on where its document stands.

Design points:

* A body is a template: texts that are the same in all contexts, and the starts of the macros for
  files beside the document, in which the element that names a page is left open (`Part`).
* The writer's state never depends on the context (`exists_part`). So the template and the
  attachments are those of one run, whatever the stream is.
* The open elements are filled alike all over a body. So two bodies of one length have elements of
  one length, and the first open element tells the bodies apart (`pageElement_eq_of_fill`).
-/

namespace WikiPress.Storage

open WikiPress.Markup
open WikiPress.Attachment (Reference)
open WikiPress.Xml (escape escape_inj)

/-! ## The page of a macro -/

/-- The part of an attachment macro in front of the element that names a page. -/
def macroFront (kind : ReferenceKind) (filename : String) : String :=
  let body := "<ri:attachment ri:filename=\"" ++ escape filename ++ "\">"
  match kind with
  | .image => "<ac:image>" ++ body
  | .link => "<ac:link>" ++ body

/-- The part behind that element and in front of the macro's children. -/
def macroBack : ReferenceKind → String
  | .image => ""
  | .link => "</ri:attachment><ac:plain-text-link-body><![CDATA["

/-- The element that names a page, absent when there is none to name. -/
def pageElement (page : Option String) : String := (page.map pageReference).getD ""

theorem attachmentStart_eq (kind : ReferenceKind) (filename : String) (page : Option String) :
    attachmentStart kind filename page =
      macroFront kind filename ++ pageElement page ++ macroBack kind := by
  cases kind with
  | image => simp only [attachmentStart, macroFront, macroBack, pageElement, String.append_assoc,
      String.append_empty]
  | link => simp only [attachmentStart, macroFront, macroBack, pageElement, String.append_assoc]

/-- Between two fixed texts, a text is known by the whole. -/
theorem between_inj {front back s t : String} (h : front ++ s ++ back = front ++ t ++ back) :
    s = t := by
  have hlist := congrArg String.toList h
  simp only [String.toList_append] at hlist
  exact String.toList_inj.1 (List.append_cancel_left (List.append_cancel_right hlist))

theorem pageReference_ne_empty (title : String) : pageReference title ≠ "" := by
  intro hempty
  have hback := (String.append_eq_empty_iff.1 hempty).2
  exact absurd hback (by decide)

/-- A page is known by its element. -/
theorem pageElement_inj {page page' : Option String} (h : pageElement page = pageElement page') :
    page = page' := by
  cases page with
  | none =>
      cases page' with
      | none => rfl
      | some title => exact absurd h.symm (pageReference_ne_empty title)
  | some title =>
      cases page' with
      | none => exact absurd h (pageReference_ne_empty title)
      | some title' => exact congrArg some (escape_inj (between_inj h))

/-! ## Templates -/

/-- A piece of a body, before it is known where the document stands. -/
inductive Part
  /-- A text that is the same everywhere. -/
  | text (s : String)
  /-- The start of the macro for a file beside the document. -/
  | beside (kind : ReferenceKind) (r : Reference)

/-- The text of a piece in a context. -/
def Part.fill (context : Context) : Part → String
  | .text s => s
  | .beside kind r =>
      macroFront kind r.filename ++ pageElement (ownerTitle context .current) ++ macroBack kind

/-- The file that a piece starts the macro for. -/
def Part.reference? : Part → Option Reference
  | .text _ => none
  | .beside _ r => some r

/-- Whether a file is beside the document. -/
def isBeside (r : Reference) : Bool := r.directory = .current

/-- The text of a template in a context. -/
def fill (context : Context) (parts : List Part) : String :=
  String.join (parts.map (Part.fill context))

/-- Two contexts make the same page own the files beside the document. -/
def SameOwner (c c' : Context) : Prop :=
  c.isIndex = c'.isIndex ∧ (c.isIndex = false → c.parentTitle = c'.parentTitle)

theorem ownerTitle_current_eq_iff {c c' : Context} :
    ownerTitle c .current = ownerTitle c' .current ↔ SameOwner c c' := by
  unfold ownerTitle SameOwner
  cases c.isIndex <;> cases c'.isIndex <;> simp

/-- An event leads to the same state in all contexts, and adds the same piece of a template. A file
that is met is the one of the piece, unless it is elsewhere. -/
def Fills (s : State) (take : Context → State × String) : Prop :=
  ∃ (after : State) (part : Part) (met : Option Reference),
    (∀ context, take context = (after, Part.fill context part)) ∧
    after.attachments = met.toList ++ s.attachments ∧
    met.toList.filter isBeside = part.reference?.toList

theorem fills_of_same {s after : State} {text : String}
    (h : after.attachments = s.attachments) : Fills s fun _ => (after, text) :=
  ⟨after, .text text, none, fun _ => rfl, h, rfl⟩

/-- Only what opens a macro for a file beside the document looks at the context. -/
theorem fills_openReference (style : Style) (s : State) (tag : Tag) (kind : ReferenceKind)
    (destination : Option String) :
    Fills s (openReference style · s tag kind destination) := by
  unfold openReference
  split
  · exact fills_of_same rfl
  · split
    · next r _ =>
        cases hr : r.directory with
        | current =>
            refine ⟨{ s with
              frames := .attachment kind :: s.frames
              attachments := r :: s.attachments }, .beside kind r, some r,
              fun context => Prod.ext rfl (attachmentStart_eq _ _ _), rfl, ?_⟩
            simp [isBeside, hr, Part.reference?]
        | page first more =>
            refine ⟨{ s with
              frames := .attachment kind :: s.frames
              attachments := r :: s.attachments },
              .text (attachmentStart kind r.filename
                (Attachment.Directory.page first more).pageTitle),
              some r, fun context => rfl, rfl, ?_⟩
            simp [isBeside, hr, Part.reference?]
    · exact fills_of_same rfl

theorem fills_openTag (style : Style) (s : State) (tag : Tag) :
    Fills s (openTag style · s tag) := by
  cases tag with
  | image destination title => exact fills_openReference style s _ _ _
  | link kind destination title => exact fills_openReference style s _ _ _
  | codeBlock info =>
      simp only [openTag]
      split <;> exact fills_of_same rfl
  | blockQuote => exact fills_of_same rfl
  | _ =>
      simp only [openTag]
      split <;> exact fills_of_same rfl

theorem closeReference_attachments (style : Style) (s : State) (tag : Closing) :
    (closeReference style s tag).1.attachments = s.attachments := by
  unfold closeReference
  split <;> rfl

theorem closeTag_attachments (style : Style) (s : State) (tag : Closing) :
    (closeTag style s tag).1.attachments = s.attachments := by
  unfold closeTag
  split
  · exact closeReference_attachments style s _
  · exact closeReference_attachments style s _
  · rfl
  · rfl
  · split <;> rfl

theorem leaf_attachments (style : Style) (s : State) (e : Event) :
    (leaf style s e).1.attachments = s.attachments := by
  unfold leaf
  split <;> rfl

theorem codeStep_attachments (s : State) (code : PendingCode) (e : Event) :
    (codeStep s code e).1.attachments = s.attachments := by
  unfold codeStep
  split <;> rfl

theorem exists_part (style : Style) (s : State) (e : Event) :
    Fills s (step style · s e) := by
  unfold step
  split
  · exact fills_of_same (codeStep_attachments s _ e)
  · split
    · exact fills_openTag style s _
    · exact fills_of_same (closeTag_attachments style s _)
    · exact fills_of_same (leaf_attachments style s _)

/-- A stretch: a state and a template, in all contexts alike, with the files it meets. -/
theorem exists_parts (style : Style) (s : State) (es : List Event) :
    ∃ (after : State) (parts : List Part) (met : List Reference),
      (∀ context, run style context s es = (after, parts.map (Part.fill context))) ∧
        after.attachments = met.reverse ++ s.attachments ∧
        met.filter isBeside = parts.filterMap Part.reference? := by
  induction es generalizing s with
  | nil => exact ⟨s, [], [], fun _ => rfl, rfl, rfl⟩
  | cons e es ih =>
      obtain ⟨next, part, first, hstep, hnext, hpart⟩ := exists_part style s e
      obtain ⟨after, parts, more, hrun, hafter, hparts⟩ := ih next
      refine ⟨after, part :: parts, first.toList ++ more, fun context => ?_, ?_, ?_⟩
      · have htake : step style context s e = (next, Part.fill context part) := hstep context
        rw [run_cons, htake, hrun context]
        rfl
      · have hone : first.toList.reverse = first.toList := by cases first <;> rfl
        rw [hafter, hnext, List.reverse_append, hone, List.append_assoc]
      · rw [List.filter_append, hpart, hparts]
        cases part <;> rfl

/-! ## Telling two fillings apart -/

section Fillings

variable {c c' : Context} {parts : List Part}

@[simp] theorem fill_cons (context : Context) (part : Part) (parts : List Part) :
    fill context (part :: parts) = part.fill context ++ fill context parts := by
  simp [fill]

theorem fill_congr (h : ownerTitle c .current = ownerTitle c' .current) (parts : List Part) :
    fill c parts = fill c' parts := by
  have hpart : Part.fill c = Part.fill c' := by
    funext part
    cases part with
    | text s => rfl
    | beside kind r => simp only [Part.fill, h]
  unfold fill
  rw [hpart]

/-- Without files beside the document, there is nothing to fill in. -/
theorem fill_of_no_reference (c c' : Context) (h : parts.filterMap Part.reference? = []) :
    fill c parts = fill c' parts := by
  induction parts with
  | nil => rfl
  | cons part parts ih =>
      cases part with
      | text s => rw [fill_cons, fill_cons, ih h]; rfl
      | beside kind r => exact absurd h (List.cons_ne_nil _ _)

/-- Every open element adds its own length. -/
theorem length_fill (parts : List Part) :
    ∃ fixed, ∀ context, (fill context parts).length =
      fixed + (parts.filterMap Part.reference?).length *
        (pageElement (ownerTitle context .current)).length := by
  induction parts with
  | nil => exact ⟨0, fun _ => by simp [fill]⟩
  | cons part parts ih =>
      obtain ⟨fixed, hfixed⟩ := ih
      cases part with
      | text s =>
          refine ⟨s.length + fixed, fun context => ?_⟩
          rw [fill_cons, String.length_append, hfixed context, ← Nat.add_assoc]
          rfl
      | beside kind r =>
          refine ⟨(macroFront kind r.filename).length + (macroBack kind).length + fixed,
            fun context => ?_⟩
          have hcons : ((Part.beside kind r :: parts).filterMap Part.reference?).length =
              (parts.filterMap Part.reference?).length + 1 := rfl
          rw [fill_cons, String.length_append, hfixed context, hcons, Nat.add_mul]
          simp only [Part.fill, String.length_append]
          omega

/-- Elements of one length are told apart at the first place that is left open. -/
theorem pageElement_eq_of_fill
    (hlength : (pageElement (ownerTitle c .current)).length =
      (pageElement (ownerTitle c' .current)).length)
    (hsome : parts.filterMap Part.reference? ≠ []) (h : fill c parts = fill c' parts) :
    pageElement (ownerTitle c .current) = pageElement (ownerTitle c' .current) := by
  induction parts with
  | nil => exact absurd rfl hsome
  | cons part parts ih =>
      rw [fill_cons, fill_cons] at h
      have hlist := congrArg String.toList h
      cases part with
      | text s =>
          simp only [Part.fill, String.toList_append] at hlist
          exact ih hsome (String.toList_inj.1 (List.append_cancel_left hlist))
      | beside kind r =>
          simp only [Part.fill, String.toList_append, List.append_assoc] at hlist
          have hrest := List.append_cancel_left hlist
          exact String.toList_inj.1 (List.append_inj_left hrest hlength)

theorem fill_eq_iff :
    fill c parts = fill c' parts ↔
      SameOwner c c' ∨ parts.filterMap Part.reference? = [] := by
  constructor
  · intro h
    by_cases hnone : parts.filterMap Part.reference? = []
    · exact .inr hnone
    · refine .inl (ownerTitle_current_eq_iff.1 (pageElement_inj ?_))
      obtain ⟨fixed, hfixed⟩ := length_fill parts
      have htotal := congrArg String.length h
      rw [hfixed c, hfixed c'] at htotal
      have hlength := Nat.eq_of_mul_eq_mul_left (List.length_pos_iff.2 hnone)
        (Nat.add_left_cancel htotal)
      exact pageElement_eq_of_fill hlength hnone h
  · rintro (hsame | hnone)
    · exact fill_congr (ownerTitle_current_eq_iff.2 hsame) parts
    · exact fill_of_no_reference c c' hnone

end Fillings

/-- **The context reaches the pages of files beside the document only.** In all contexts, the body
is one template filled in: what is left open is the element that names a page, in the macro of each
reported file that is beside the document. The reported files are the same in all contexts. And two
contexts give the same body exactly if they make the same page own the files beside the document,
or no such file is reported. So the parent title is nothing to an index document, and to another
document it is nothing without such a file. -/
theorem context_reaches_pages_beside (style : Style) (es : List Event) :
    (∃ parts, ∀ context,
      (write style context es).body = tableOfContents ++ fill context parts ∧
        (write style context es).attachments.filter isBeside =
          parts.filterMap Part.reference?) ∧
      (∀ c c', (write style c es).attachments = (write style c' es).attachments) ∧
      (∀ c c', (write style c es).body = (write style c' es).body ↔
        SameOwner c c' ∨ ∀ r ∈ (write style c es).attachments, r.directory ≠ .current) ∧
      (∀ title title', write style ⟨title, true⟩ es = write style ⟨title', true⟩ es) ∧
      ∀ title title', title ≠ title' →
        ((write style ⟨title, false⟩ es).body ≠ (write style ⟨title', false⟩ es).body ↔
          ∃ r ∈ (write style ⟨title, false⟩ es).attachments, r.directory = .current) := by
  obtain ⟨after, parts, met, hrun, hafter, hparts⟩ := exists_parts style .start es
  have hwrite : ∀ context,
      write style context es = ⟨tableOfContents ++ fill context parts, met⟩ := by
    intro context
    have hmet : after.attachments.reverse = met := by
      rw [hafter]
      simp [State.start]
    simp only [write, hrun context, hmet, fill]
  have hbeside : parts.filterMap Part.reference? = [] ↔ ∀ r ∈ met, r.directory ≠ .current := by
    rw [← hparts, List.filter_eq_nil_iff]
    simp [isBeside]
  have hbody : ∀ c c', (write style c es).body = (write style c' es).body ↔
      SameOwner c c' ∨ ∀ r ∈ met, r.directory ≠ .current := by
    intro c c'
    rw [hwrite c, hwrite c', ← hbeside, ← fill_eq_iff]
    exact String.append_right_inj tableOfContents
  refine ⟨⟨parts, fun context => ?_⟩, fun c c' => ?_, fun c c' => ?_, fun title title' => ?_,
    fun title title' hne => ?_⟩
  · rw [hwrite context]
    exact ⟨rfl, hparts⟩
  · rw [hwrite c, hwrite c']
  · rw [hbody c c', hwrite c]
  · have hsame : SameOwner ⟨title, true⟩ ⟨title', true⟩ := ⟨rfl, nofun⟩
    rw [hwrite, hwrite, fill_congr (ownerTitle_current_eq_iff.2 hsame)]
  · have hother : ¬SameOwner ⟨title, false⟩ ⟨title', false⟩ := fun h => hne (h.2 rfl)
    rw [Ne, hbody, hwrite]
    simp [hother]

end WikiPress.Storage
