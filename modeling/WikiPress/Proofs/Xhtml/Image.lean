import WikiPress.Markup.Document
import WikiPress.Proofs.Xhtml.Tracking
import WikiPress.Proofs.Xml.Escaped

/-!
# WikiPress.Proofs.Xhtml.Image

What becomes of an image and of everything inside it.

Design points:

* Inside an image the writer adds text to the alternative text, counts images, and forgets
  other containers. Raw markup and hard breaks it does not hold back: they are written where
  they stand, in front of the image (`leaked`).
* The element is taken apart by a reader that knows its attributes and nothing of the writer
  (`readImage`).
* What an alternative text should be is said by a relation, because a break may become any
  white space (`Describes`). The writer's own choice is `altText`.
* Text inside a code block goes to the code block even where an image is open. No parser
  produces that, but nested streams can have it (`Tracks.code`).
-/

namespace WikiPress.Xhtml

open WikiPress.Markup
open WikiPress.Xml (behind behind_append readBetween readBetween_escapeChars escape)

/-! ## Reading an element -/

/-- An image as its element has it. -/
structure Image where
  source : List Char
  title : List Char
  alt : List Char
  deriving DecidableEq, Repr

/-- An image element, and what is behind it. A title that is not given is empty. -/
def readImage (cs : List Char) : Option (Image × List Char) := do
  let (source, cs) ← readBetween "<img src=\"" "\"" cs
  let (alt, cs) ← readBetween " alt=\"" "\"" cs
  let (title, cs) := (readBetween " title=\"" "\"" cs).getD ([], cs)
  let cs ← behind " />".toList cs
  some (⟨source, title, alt⟩, cs)

/-- A quoted value is read as the text it was escaped from. -/
theorem readBetween_value (start value : String) (rest : List Char) :
    readBetween start "\"" (start.toList ++ ((escape value).toList ++ ("\"".toList ++ rest))) =
      some (value.toList, rest) := by
  have hstop : ∃ c ∈ Xml.markupChars, "\"".toList.head? = some c := ⟨'"', by decide, by decide⟩
  rw [Xml.toList_escape]
  exact readBetween_escapeChars start value.toList rest hstop

/-- The title of an element, given or not. -/
theorem readBetween_titleAttribute (title : String) (rest : List Char) :
    (readBetween " title=\"" "\"" ((titleAttribute title).toList ++ (" />".toList ++ rest))).getD
        ([], (titleAttribute title).toList ++ (" />".toList ++ rest)) =
      (title.toList, " />".toList ++ rest) := by
  unfold titleAttribute
  by_cases hempty : title.isEmpty = true
  · -- the next attribute would begin with another character
    obtain rfl : title = "" := by simpa using hempty
    have hnone : readBetween " title=\"" "\"" (" />".toList ++ rest) = none := by
      have hfront : " title=\"".toList = ' ' :: 't' :: "itle=\"".toList := by decide
      have hback : " />".toList = ' ' :: '/' :: ['>'] := by decide
      simp [readBetween, behind, hfront, hback]
    rw [if_pos hempty, String.toList_empty, List.nil_append, hnone, Option.getD_none]
  · have hsplit : (" title=\"" ++ escape title ++ "\"").toList ++ (" />".toList ++ rest) =
        " title=\"".toList ++ ((escape title).toList ++ ("\"".toList ++ (" />".toList ++ rest))) :=
      Xml.toList_append_three _ _ _ _
    rw [if_neg hempty, hsplit, readBetween_value, Option.getD_some]

/-- A finished image is read as what it was written for. -/
theorem readImage_write (i : PendingImage) (rest : List Char) :
    readImage (i.write.toList ++ rest) =
      some (⟨i.source.toList, i.title.toList, i.alt.toList⟩, rest) := by
  have hmiddle : "\" alt=\"".toList = "\"".toList ++ " alt=\"".toList := by decide
  have hsplit : i.write.toList ++ rest =
      "<img src=\"".toList ++ ((escape i.source).toList ++ ("\"".toList ++
        (" alt=\"".toList ++ ((escape i.alt).toList ++ ("\"".toList ++
          ((titleAttribute i.title).toList ++ (" />".toList ++ rest))))))) := by
    simp only [PendingImage.write, String.toList_append, hmiddle, List.append_assoc]
  rw [hsplit, readImage, readBetween_value]
  simp only [Option.bind_eq_bind, Option.bind_some, readBetween_value,
    readBetween_titleAttribute, behind_append]

/-! ## Inside an image -/

/-- What an event adds to the alternative text of the image around it. While text is
collected for a code block, it goes there. -/
def altText (collecting : Bool) : Event → String
  | .text t => if collecting then "" else t
  | .code t => t
  | .softBreak => " "
  | _ => ""

/-- What an event inside an image adds to the output, in front of the image. -/
def leaked : Event → String
  | .html t | .inlineHtml t => t
  | .hardBreak => "<br />"
  | .rule => "<hr />"
  | .taskMarker checked => if checked then "[x] " else "[ ] "
  | _ => ""

variable {tags after : List Tag} {s : State} {i : PendingImage}

/-- The image of a state with more alternative text, inside some open tags. -/
def PendingImage.extend (i : PendingImage) (alt : String) (tags : List Tag) : PendingImage :=
  { i with alt := i.alt ++ alt, depth := tags.countP Tag.isImage }

theorem extend_extend (i : PendingImage) (alt alt' : String) (tags tags' : List Tag) :
    (i.extend alt tags).extend alt' tags' = i.extend (alt ++ alt') tags' := by
  simp [PendingImage.extend, String.append_assoc]

theorem extend_empty (h : i.depth = tags.countP Tag.isImage) : i.extend "" tags = i := by
  simp [PendingImage.extend, ← h]

/-- An opening inside an image is counted if it begins an image. -/
theorem enter_inside (tag : Tag) (hdepth : i.depth = tags.countP Tag.isImage) :
    i.enter tag = i.extend "" (tag :: tags) := by
  rw [PendingImage.extend, List.countP_cons, ← hdepth, ← enter_depth, String.append_empty]
  cases tag <;> rfl

/-- A closing inside an image is counted if it ends an image. -/
theorem leave_inside {tag : Tag} (himage : s.image = some i)
    (hdepth : i.depth = (tag :: tags).countP Tag.isImage) :
    i.leave s tag.closing = ({ s with image := some (i.extend "" tags) }, "") := by
  rw [List.countP_cons] at hdepth
  by_cases htag : tag.isImage = true
  · rw [if_pos htag] at hdepth
    cases tag with
    | image source title =>
        simp [PendingImage.leave, Tag.closing, hdepth, PendingImage.extend]
    | _ => cases htag
  · rw [if_neg htag] at hdepth
    rw [extend_empty hdepth, ← himage]
    cases tag <;> first | rfl | exact absurd rfl htag

/-- One event inside an image. -/
theorem step_inside (hardLineBreak : Bool) {e : Event} (himage : s.image = some i)
    (hdepth : i.depth = tags.countP Tag.isImage) (hnest : nestStep tags e = some after) :
    (step hardLineBreak s e).2 = leaked e ∧
      (step hardLineBreak s e).1.image = some (i.extend (altText s.code.isSome e) after) ∧
      (step hardLineBreak s e).1.code.isSome = s.code.isSome := by
  cases e with
  | opening tag =>
      obtain rfl := Option.some.inj hnest
      have hstep : step hardLineBreak s (.opening tag) =
          ({ s with image := some (i.enter tag) }, "") := by simp only [step, himage]
      rw [hstep, enter_inside tag hdepth]
      exact ⟨rfl, rfl, rfl⟩
  | closing c =>
      obtain ⟨tag, rfl, rfl⟩ := nestStep_closing hnest
      have hstep : step hardLineBreak s (.closing tag.closing) = i.leave s tag.closing := by
        simp only [step, himage]
      rw [hstep, leave_inside himage hdepth]
      exact ⟨rfl, rfl, rfl⟩
  | text t =>
      obtain rfl := Option.some.inj hnest
      cases hcode : s.code with
      | none => simp [step, hcode, himage, leaked, altText, PendingImage.extend, hdepth]
      | some code => simp [step, hcode, himage, leaked, altText, PendingImage.extend, ← hdepth]
  | code t | softBreak =>
      obtain rfl := Option.some.inj hnest
      simp [step, himage, leaked, altText, PendingImage.extend, hdepth]
  | _ =>
      obtain rfl := Option.some.inj hnest
      refine ⟨rfl, ?_, rfl⟩
      exact himage.trans (congrArg some (extend_empty hdepth).symm)

/-- The events inside an image add to its alternative text, and what is not held back. -/
theorem run_inside (hardLineBreak : Bool) {es : List Event} (himage : s.image = some i)
    (hdepth : i.depth = tags.countP Tag.isImage) (hnest : nest tags es = some after) :
    (run hardLineBreak s es).2 = es.map leaked ∧
      (run hardLineBreak s es).1.image =
        some (i.extend (String.join (es.map (altText s.code.isSome))) after) := by
  induction es generalizing tags s i with
  | nil =>
      obtain rfl := Option.some.inj hnest
      refine ⟨rfl, himage.trans (congrArg some ?_)⟩
      exact (extend_empty hdepth).symm
  | cons e es ih =>
      rw [nest_cons] at hnest
      obtain ⟨mid, hfirst, hrest⟩ := Option.bind_eq_some_iff.1 hnest
      obtain ⟨hpiece, himage', hcode⟩ := step_inside hardLineBreak himage hdepth hfirst
      obtain ⟨hpieces, hlast⟩ := ih himage' rfl hrest
      rw [hcode, extend_extend] at hlast
      rw [run_cons, hpiece, hpieces]
      refine ⟨rfl, hlast.trans ?_⟩
      rw [List.map_cons, String.join_cons]

/-- An image that stands inside no other is written when it ends. -/
theorem run_image (hardLineBreak : Bool) (source title : String) {inside : List Event}
    (hs : s.image = none) (hinside : Balanced inside) :
    (run hardLineBreak s (enclose (.image source title) inside)).2 =
      "" :: (inside.map leaked ++
        [PendingImage.write
          ⟨source, title, String.join (inside.map (altText s.code.isSome)), 0⟩]) := by
  have hopen : step hardLineBreak s (.opening (.image source title)) =
      ({ s with image := some ⟨source, title, "", 0⟩ }, "") := by simp only [step, hs, openTag]
  obtain ⟨hpieces, himage⟩ := run_inside hardLineBreak
    (s := { s with image := some ⟨source, title, "", 0⟩ }) rfl rfl (balanced_iff_nest.1 hinside)
  rw [enclose, List.cons_append, run_cons, hopen, run_append, hpieces, run_cons, run_nil]
  simp only [step, himage, Tag.closing]
  rw [PendingImage.leave]
  simp [PendingImage.extend]

/-! ## What an image should become -/

/-- What an event may be in an alternative text: texts are kept, a break is white space, and
nothing else shows. -/
def Renders : Event → List Char → Prop
  | .text t, cs | .code t, cs => cs = t.toList
  | .softBreak, cs | .hardBreak, cs => cs ≠ [] ∧ ∀ c ∈ cs, c.isWhitespace = true
  | _, cs => cs = []

/-- An alternative text says what the events of an image say. -/
def Describes (alt : List Char) (es : List Event) : Prop :=
  ∃ parts, List.Forall₂ Renders es parts ∧ alt = parts.flatten

/-- The texts that the events of an image add to the output are one element at its end, which
has the image's source and title and describes what is inside. -/
def OneElement (source title : String) (inside : List Event) (texts : List String) : Prop :=
  ∃ element alt, texts = "" :: (inside.map (fun _ => "") ++ [element]) ∧
    readImage element.toList = some (⟨source.toList, title.toList, alt⟩, []) ∧
    Describes alt inside

theorem renders_altText {collecting : Bool} {e : Event} (hleak : leaked e = "")
    (htext : collecting = true → ∀ t, e = .text t → t = "") :
    Renders e (altText collecting e).toList := by
  cases e with
  | text t =>
      cases collecting with
      | true => simp [altText, Renders, htext rfl t rfl]
      | false => rfl
  | softBreak =>
      have hblank : ' '.isWhitespace = true := by decide
      simp [altText, Renders, hblank]
  | hardBreak => simp [leaked] at hleak
  | _ => rfl

/-- If nothing is left out, the writer's alternative text describes what is inside. -/
theorem describes_altText {collecting : Bool} {es : List Event} (hleak : ∀ e ∈ es, leaked e = "")
    (htext : collecting = true → ∀ t, .text t ∈ es → t = "") :
    Describes (String.join (es.map (altText collecting))).toList es := by
  induction es with
  | nil => exact ⟨[], .nil, by simp [String.join]⟩
  | cons e es ih =>
      obtain ⟨parts, hparts, heq⟩ := ih (fun e' h => hleak e' (List.mem_cons_of_mem _ h))
        (fun hc t h => htext hc t (List.mem_cons_of_mem _ h))
      have hfirst : Renders e (altText collecting e).toList :=
        renders_altText (hleak e List.mem_cons_self) fun hc t he =>
          htext hc t (he ▸ List.mem_cons_self)
      refine ⟨_ :: parts, .cons hfirst hparts, ?_⟩
      rw [List.map_cons, String.join_cons, String.toList_append, heq, List.flatten_cons]

/-- What may stand for events is no shorter than what is written for them, and it is longer
if a text was kept back. -/
theorem length_altText_le {es : List Event} {parts : List (List Char)}
    (h : List.Forall₂ Renders es parts) :
    (String.join (es.map (altText true))).toList.length ≤ parts.flatten.length ∧
      (parts.flatten.length ≤ (String.join (es.map (altText true))).toList.length →
        ∀ t, .text t ∈ es → t = "") := by
  induction h with
  | nil => simp [String.join]
  | @cons e part es parts hfirst hrest ih =>
      obtain ⟨hle, htexts⟩ := ih
      have hpart : (altText true e).toList.length ≤ part.length ∧
          (part.length ≤ (altText true e).toList.length → ∀ t, e = .text t → t = "") := by
        cases e with
        | text t =>
            obtain rfl : part = t.toList := hfirst
            refine ⟨by simp [altText], ?_⟩
            intro hlength t' ht
            obtain rfl := Event.text.inj ht
            simpa [altText] using hlength
        | code t =>
            obtain rfl : part = t.toList := hfirst
            exact ⟨le_refl _, fun _ t' ht => by cases ht⟩
        | softBreak =>
            have hpos := List.length_pos_iff.2 hfirst.1
            exact ⟨hpos, fun _ t' ht => by cases ht⟩
        | _ => exact ⟨by simp [altText], fun _ t' ht => by cases ht⟩
      rw [List.map_cons, String.join_cons, String.toList_append, List.length_append,
        List.flatten_cons, List.length_append]
      refine ⟨by omega, ?_⟩
      intro hlength t ht
      rcases List.mem_cons.1 ht with heq | ht
      · exact hpart.2 (by omega) t heq.symm
      · exact htexts (by omega) t ht

theorem length_run (hardLineBreak : Bool) (s : State) (es : List Event) :
    (run hardLineBreak s es).2.length = es.length := by
  induction es generalizing s with
  | nil => rfl
  | cons e es ih => rw [run_cons, List.length_cons, ih, List.length_cons]

/-- What the events of a stretch of a stream add to the output. -/
theorem take_drop_pieces (hardLineBreak : Bool) (before inside behind : List Event) :
    ((pieces hardLineBreak (before ++ (inside ++ behind))).drop before.length).take inside.length =
      (run hardLineBreak (run hardLineBreak .start before).1 inside).2 := by
  have hbefore := length_run hardLineBreak .start before
  have hinside := length_run hardLineBreak (run hardLineBreak .start before).1 inside
  rw [pieces, run_append, run_append, ← hbefore, List.drop_left, ← hinside, List.take_left]

/-- **An image is one element, but for what is not held back.** Wherever an image stands in a
balanced stream, inside no other image and around whatever: its events add only the texts of
raw markup, hard breaks, rules and task markers inside it, and at its end one element with its
source and title. This is one element and nothing else, described by what is inside, exactly
if those texts are empty and no text was collected for a code block around the image instead;
and it is collected only if there is such a code block. -/
theorem oneElement_iff (hardLineBreak : Bool) (source title : String)
    (before inside behind : List Event)
    (hbalanced : Balanced (before ++ (enclose (.image source title) inside ++ behind)))
    (hinside : Balanced inside) (houter : ∀ tag ∈ openTags before, tag.isImage = false) :
    let image := enclose (.image source title) inside
    let texts := ((pieces hardLineBreak (before ++ (image ++ behind))).drop before.length).take
      image.length
    let collecting := (run hardLineBreak .start before).1.code.isSome
    let alt := (String.join (inside.map (altText collecting))).toList
    (∃ element, texts = "" :: (inside.map leaked ++ [element]) ∧
        readImage element.toList = some (⟨source.toList, title.toList, alt⟩, [])) ∧
      (OneElement source title inside texts ↔
        (∀ e ∈ inside, leaked e = "") ∧
          (collecting = true → ∀ t, .text t ∈ inside → t = "")) ∧
      (collecting = true → ∃ info, .codeBlock info ∈ openTags before) := by
  intro image texts collecting alt
  have hnest := balanced_iff_nest.1 hbalanced
  rw [nest_append] at hnest
  obtain ⟨tags, hbefore, -⟩ := Option.bind_eq_some_iff.1 hnest
  have htracks : Tracks tags (run hardLineBreak .start before).1 :=
    tracks_start.run hardLineBreak hbefore
  have htags : openTags before = tags := openTagsFrom_of_nest hbefore
  rw [htags] at houter ⊢
  obtain ⟨element, htexts, hread⟩ : ∃ element, texts = "" :: (inside.map leaked ++ [element]) ∧
      readImage element.toList = some (⟨source.toList, title.toList, alt⟩, []) := by
    refine ⟨_, (take_drop_pieces hardLineBreak before image behind).trans
      (run_image hardLineBreak source title (htracks.image_eq_none houter) hinside), ?_⟩
    have hwhole := readImage_write ⟨source, title, String.join (inside.map (altText collecting)), 0⟩
      []
    rw [List.append_nil] at hwhole
    exact hwhole
  refine ⟨⟨element, htexts, hread⟩, ⟨?_, ?_⟩, ?_⟩
  · rintro ⟨element', alt', htexts', hread', hdescribes⟩
    rw [htexts] at htexts'
    obtain ⟨hleaks, hlast⟩ := List.append_inj (List.cons.inj htexts').2 (by simp)
    have hsame : alt' = alt := by
      rw [← List.singleton_inj.1 hlast, hread] at hread'
      exact (congrArg (fun r => r.1.alt) (Option.some.inj hread')).symm
    refine ⟨List.map_inj_left.1 hleaks, ?_⟩
    intro hcollecting
    obtain ⟨parts, hparts, hflat⟩ := hdescribes
    rw [hsame] at hflat
    refine (length_altText_le hparts).2 ?_
    rw [← hflat, ← hcollecting]
  · intro h
    refine ⟨element, alt, ?_, hread, describes_altText h.1 h.2⟩
    rw [htexts, List.map_congr_left h.1]
  · intro hcollecting
    obtain ⟨info, outer, hsuffix, -⟩ := htracks.code hcollecting
    exact ⟨info, hsuffix.subset List.mem_cons_self⟩

/-- Emphasis, a code span and an image inside an image show in its alternative text; a hard
break and raw markup there are written in front of it. -/
theorem oneElement_iff_nested :
    let texts (inside : List Event) :=
      let image := enclose (.image "o.png" "r&d") inside
      ((pieces false ([.opening .paragraph] ++ (image ++ [.closing .paragraph]))).drop 1).take
        image.length
    let held := [.text "a", .softBreak] ++ enclose .emphasis [.code "<b>"] ++
      enclose (.image "in.png" "") [.text "c"]
    let loose := [.text "a", .hardBreak, .inlineHtml "<b>"]
    OneElement "o.png" "r&d" held (texts held) ∧ ¬ OneElement "o.png" "r&d" loose (texts loose) ∧
      texts loose = ["", "", "<br />", "<b>",
        "<img src=\"o.png\" alt=\"a\" title=\"r&amp;d\" />"] := by
  intro texts held loose
  obtain ⟨-, hheld, -⟩ := oneElement_iff false "o.png" "r&d" [.opening .paragraph] held
    [.closing .paragraph] (by decide) (by decide) (by decide)
  obtain ⟨-, hloose, -⟩ := oneElement_iff false "o.png" "r&d" [.opening .paragraph] loose
    [.closing .paragraph] (by decide) (by decide) (by decide)
  refine ⟨hheld.2 ⟨by decide, ?_⟩, ?_, by decide⟩
  · intro hcollecting
    exact absurd hcollecting (by decide)
  · intro hone
    have hbreak := (hloose.1 hone).1 .hardBreak (by decide)
    exact absurd hbreak (by decide)

end WikiPress.Xhtml
