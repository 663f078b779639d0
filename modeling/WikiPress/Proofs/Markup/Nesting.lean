import WikiPress.Markup.Event

/-!
# WikiPress.Proofs.Markup.Nesting

Which containers are open at a point of an event stream.

Design points:

* `openTags` answers for every stream: an opening puts its tag on top, a closing takes
  one off. `nest` keeps the same stack and fails at a closing that does not match, so
  the two agree wherever `nest` answers (`openTagsFrom_of_nest`).
* A balanced stream is one that `nest` takes back to the empty stack
  (`balanced_iff_nest`). Induction along a stream goes through `nest`, because its
  start is arbitrary.
-/

namespace WikiPress.Markup

/-- Whether a tag opens an image. -/
def Tag.isImage : Tag → Bool
  | .image .. => true
  | _ => false

/-- Whether a tag opens an image or a link. -/
def Tag.isReference : Tag → Bool
  | .image .. | .link .. => true
  | _ => false

/-- Whether a tag opens a part of running text. -/
def Tag.isInline : Tag → Bool
  | .emphasis | .strong | .strikethrough | .superscript | .subscript => true
  | .image .. | .link .. => true
  | _ => false

/-- Whether an event neither opens nor closes a container. -/
def Event.isLeaf : Event → Bool
  | .opening _ | .closing _ => false
  | _ => true

/-! ## The open tags -/

/-- The open tags after one more event, innermost first. -/
def openStep (tags : List Tag) : Event → List Tag
  | .opening tag => tag :: tags
  | .closing _ => tags.tail
  | _ => tags

/-- The open tags behind a stream that starts inside some. -/
def openTagsFrom (tags : List Tag) (es : List Event) : List Tag :=
  es.foldl openStep tags

/-- The tags that are open behind a stream, innermost first. -/
def openTags (es : List Event) : List Tag := openTagsFrom [] es

@[simp] theorem openTagsFrom_nil (tags : List Tag) : openTagsFrom tags [] = tags := rfl

@[simp] theorem openTagsFrom_cons (tags : List Tag) (e : Event) (es : List Event) :
    openTagsFrom tags (e :: es) = openTagsFrom (openStep tags e) es := rfl

theorem openTags_append (as bs : List Event) :
    openTags (as ++ bs) = openTagsFrom (openTags as) bs := List.foldl_append

theorem openTags_append_singleton (es : List Event) (e : Event) :
    openTags (es ++ [e]) = openStep (openTags es) e := by
  simp [openTags, openTagsFrom]

/-- Every opening of a stream that starts inside some tags has a property, given the
tags that are open around it. -/
def AtOpenings (P : List Tag → Tag → Prop) : List Tag → List Event → Prop
  | _, [] => True
  | tags, e :: es => (∀ tag, e = .opening tag → P tags tag) ∧ AtOpenings P (openStep tags e) es

/-! ## Matching closings -/

/-- The open tags after one more event: none at a closing that matches no opening. -/
def nestStep (tags : List Tag) : Event → Option (List Tag)
  | .opening tag => some (tag :: tags)
  | .closing c =>
      match tags with
      | tag :: outer => if tag.closing = c then some outer else none
      | [] => none
  | _ => some tags

/-- The open tags behind a stream that starts inside some: none if a closing in it
matches no opening. -/
def nest (tags : List Tag) (es : List Event) : Option (List Tag) :=
  es.foldlM nestStep tags

@[simp] theorem nest_nil (tags : List Tag) : nest tags [] = some tags := rfl

theorem nest_cons (tags : List Tag) (e : Event) (es : List Event) :
    nest tags (e :: es) = (nestStep tags e).bind (nest · es) := rfl

theorem nest_append (tags : List Tag) (as bs : List Event) :
    nest tags (as ++ bs) = (nest tags as).bind (nest · bs) := by
  simp only [nest, List.foldlM_append]
  rfl

/-- A closing that `nestStep` lets pass closes the innermost tag. -/
theorem nestStep_closing {tags after : List Tag} {c : Closing}
    (h : nestStep tags (.closing c) = some after) :
    ∃ tag, tags = tag :: after ∧ tag.closing = c := by
  cases tags with
  | nil => simp [nestStep] at h
  | cons tag outer =>
      simp only [nestStep] at h
      split at h
      · next hc => exact ⟨tag, by rw [Option.some.inj h], hc⟩
      · cases h

theorem openStep_of_nestStep {tags after : List Tag} {e : Event}
    (h : nestStep tags e = some after) : openStep tags e = after := by
  cases e with
  | closing c =>
      obtain ⟨tag, rfl, -⟩ := nestStep_closing h
      rfl
  | _ => exact Option.some.inj h

theorem openTagsFrom_of_nest {tags after : List Tag} {es : List Event}
    (h : nest tags es = some after) : openTagsFrom tags es = after := by
  induction es generalizing tags with
  | nil => exact Option.some.inj h
  | cons e es ih =>
      rw [nest_cons] at h
      obtain ⟨mid, hstep, hrest⟩ := Option.bind_eq_some_iff.1 h
      rw [openTagsFrom_cons, openStep_of_nestStep hstep]
      exact ih hrest

/-- What happens inside some tags happens inside more of them. -/
theorem nest_frame {extra after : List Tag} {es : List Event} (outer : List Tag)
    (h : nest extra es = some after) : nest (extra ++ outer) es = some (after ++ outer) := by
  induction es generalizing extra with
  | nil => rw [Option.some.inj h, nest_nil]
  | cons e es ih =>
      rw [nest_cons] at h ⊢
      obtain ⟨mid, hstep, hrest⟩ := Option.bind_eq_some_iff.1 h
      have hframe : nestStep (extra ++ outer) e = some (mid ++ outer) := by
        cases e with
        | closing c =>
            -- the tag that is closed is one of the inner ones
            obtain ⟨tag, rfl, rfl⟩ := nestStep_closing hstep
            simp [nestStep]
        | opening tag => rw [← Option.some.inj hstep]; rfl
        | _ => rw [← Option.some.inj hstep]; rfl
      rw [hframe]
      exact ih hrest

theorem balancedFrom_iff_nest {tags : List Tag} {es : List Event} :
    balancedFrom (tags.map Tag.closing) es = true ↔ nest tags es = some [] := by
  induction es generalizing tags with
  | nil => cases tags <;> simp [balancedFrom]
  | cons e es ih =>
      rw [nest_cons]
      cases e with
      | opening tag =>
          have h := @ih (tag :: tags)
          cases tags <;> simpa [balancedFrom, nestStep] using h
      | closing c =>
          cases tags with
          | nil => simp [balancedFrom, nestStep]
          | cons tag outer =>
              by_cases hc : tag.closing = c
              · simpa [balancedFrom, nestStep, hc] using @ih outer
              · simp [balancedFrom, nestStep, hc]
      | _ =>
          have h := @ih tags
          cases tags <;> simpa [balancedFrom, nestStep] using h

/-- A stream is balanced if `nest` takes it back to where it started. -/
theorem balanced_iff_nest {es : List Event} : Balanced es ↔ nest [] es = some [] :=
  @balancedFrom_iff_nest [] es

/-- An open tag is closed somewhere in a stream that leaves nothing open, and what
stands between closes whatever was opened inside the tag. -/
theorem exists_closing {extra outer : List Tag} {tag : Tag} {es : List Event}
    (h : nest (extra ++ tag :: outer) es = some []) :
    ∃ inside after, es = inside ++ .closing tag.closing :: after ∧
      nest extra inside = some [] := by
  induction es generalizing extra with
  | nil => simp at h
  | cons e es ih =>
      rw [nest_cons] at h
      obtain ⟨mid, hstep, hrest⟩ := Option.bind_eq_some_iff.1 h
      cases e with
      | opening t =>
          rw [← Option.some.inj hstep] at hrest
          -- the container that is opened has to be closed before the tag is
          obtain ⟨inside, after, rfl, hin⟩ := @ih (t :: extra) hrest
          exact ⟨.opening t :: inside, after, rfl, hin⟩
      | closing c =>
          obtain ⟨t, htags, rfl⟩ := nestStep_closing hstep
          cases extra with
          | nil =>
              -- nothing is open inside the tag: this closing is its own
              obtain ⟨rfl, rfl⟩ := List.cons.inj htags
              exact ⟨[], es, rfl, rfl⟩
          | cons t' extra =>
              obtain ⟨rfl, rfl⟩ := List.cons.inj htags
              obtain ⟨inside, after, rfl, hin⟩ := ih hrest
              exact ⟨.closing t'.closing :: inside, after, rfl, by simp [nest_cons, nestStep, hin]⟩
      | _ =>
          rw [← Option.some.inj hstep] at hrest
          obtain ⟨inside, after, rfl, hin⟩ := ih hrest
          exact ⟨_ :: inside, after, rfl, hin⟩

end WikiPress.Markup
