import WikiPress.Proofs.Xml.Escaped
import WikiPress.Xhtml.Writer

/-!
# WikiPress.Proofs.Xhtml.Texts

Text that arrives in pieces is written as the whole text.

Design points:

* A text is escaped as it arrives, or collected for a code block or an alternative text that is
  escaped at its end. Either way two pieces in a row do what their concatenation does, to the
  output and to the state (`step_text_append`).
* So a stream may cut its texts anywhere (`render_texts`), also inside of what looks like an
  entity.
-/

namespace WikiPress.Xhtml

open WikiPress.Markup
open WikiPress.Xml (Inert escape escape_append eq_escape_iff unescape)

/-- Two pieces of text, one after the other. -/
theorem step_text_append (hardLineBreak : Bool) (s : State) (a b : String) :
    step hardLineBreak s (.text (a ++ b)) =
      ((step hardLineBreak (step hardLineBreak s (.text a)).1 (.text b)).1,
        (step hardLineBreak s (.text a)).2 ++
          (step hardLineBreak (step hardLineBreak s (.text a)).1 (.text b)).2) := by
  cases hcode : s.code with
  | some c => simp only [step, hcode, String.append_assoc, String.append_empty]
  | none =>
      cases himage : s.image with
      | some i => simp only [step, hcode, himage, String.append_assoc, String.append_empty]
      | none => simp only [step, hcode, himage, escape_append]

theorem step_text_empty (hardLineBreak : Bool) (s : State) :
    step hardLineBreak s (.text "") = (s, "") := by
  obtain ⟨table, image, code⟩ := s
  cases code with
  | some c => simp only [step, String.append_empty]
  | none =>
      cases image with
      | some i => simp only [step, String.append_empty]
      | none => rfl

/-- The pieces of a text do what the text does. -/
theorem run_texts (hardLineBreak : Bool) (s : State) (pieces : List String) :
    ((run hardLineBreak s (pieces.map .text)).1,
        String.join (run hardLineBreak s (pieces.map .text)).2) =
      step hardLineBreak s (.text (String.join pieces)) := by
  induction pieces generalizing s with
  | nil => exact (step_text_empty hardLineBreak s).symm
  | cons t pieces ih =>
      rw [List.map_cons, run_cons, String.join_cons, String.join_cons, step_text_append, ← ih]

/-- A stream gives the same output however a text in it is cut into pieces. -/
theorem render_texts (hardLineBreak : Bool) (before after : List Event) (pieces : List String) :
    render hardLineBreak (before ++ (pieces.map .text ++ after)) =
      render hardLineBreak (before ++ .text (String.join pieces) :: after) := by
  have htexts := run_texts hardLineBreak (run hardLineBreak .start before).1 pieces
  have hstate := congrArg Prod.fst htexts
  have houtput := congrArg Prod.snd htexts
  simp only [render, Xhtml.pieces, run_append, run_cons, String.join_append, String.join_cons]
  simp only at hstate houtput
  rw [hstate, houtput]

/-- **Escaping is exact and inert, and may be done in pieces.** The escaped form of a text is the
only text that holds none of `<`, `>`, `"` and `'`, in which every `&` begins one of the five
entities, and from which the text is got back by reading the entities from left to right. Texts
that look escaped already are no exception. Two texts in a row are escaped to their escaped forms
in a row. So text that arrives in pieces is written as the whole text would be, and wherever a
stream cuts a text into pieces, in code blocks and alternative texts too, its output is the same. -/
theorem text_escaped_exactly :
    (∀ s t, t = escape s ↔ Inert t.toList ∧ unescape t = s) ∧
      (∀ s r, escape (s ++ r) = escape s ++ escape r) ∧
      ∀ hardLineBreak pieces,
        render hardLineBreak (pieces.map .text) = escape (String.join pieces) ∧
          ∀ before after,
            render hardLineBreak (before ++ (pieces.map .text ++ after)) =
              render hardLineBreak (before ++ .text (String.join pieces) :: after) := by
  refine ⟨fun s t => eq_escape_iff, escape_append, fun hardLineBreak pieces => ⟨?_, ?_⟩⟩
  · have hwhole := render_texts hardLineBreak [] [] pieces
    rw [List.nil_append, List.append_nil, List.nil_append] at hwhole
    rw [hwhole]
    -- nothing is pending at the start, so the one event is escaped as it arrives
    show "" ++ escape (String.join pieces) = _
    rw [String.empty_append]
  · intro before after
    exact render_texts hardLineBreak before after pieces

end WikiPress.Xhtml
