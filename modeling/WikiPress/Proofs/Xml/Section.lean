import Mathlib.Algebra.Ring.Nat
import Mathlib.Data.List.Infix
import WikiPress.Storage.Macro

/-!
# WikiPress.Proofs.Xml.Section

CDATA sections: how a reader takes them, and what becomes of text that is escaped for
them piece by piece.

Design points:

* A section ends at the first terminator in it, whoever wrote it. Text is read from
  sections that follow each other directly (`readSections`).
* Escaping cuts every terminator in a piece across two sections. A terminator that lies
  across two pieces is in none of them and stays (`Severed`).
* Reading back goes right exactly if no terminator is severed. One direction is a
  calculation; the other counts: every terminator in the written text ends a section, and
  each section more than the escape accounts for costs twelve characters of content
  (`length_of_readSection`).
-/

namespace WikiPress.Xml

open WikiPress.Storage (cdataChars)

/-- What ends a section. -/
def terminator : List Char := [']', ']', '>']

/-- What starts a section. -/
def sectionStart : List Char := ['<', '!', '[', 'C', 'D', 'A', 'T', 'A', '[']

/-- What is behind some characters at the front. -/
def behind (front cs : List Char) : Option (List Char) :=
  if front <+: cs then some (cs.drop front.length) else none

theorem behind_append (front cs : List Char) : behind front (front ++ cs) = some cs := by
  simp [behind]

theorem eq_append_of_behind {front cs rest : List Char} (h : behind front cs = some rest) :
    cs = front ++ rest := by
  unfold behind at h
  split at h
  · next hp =>
      obtain ⟨t, rfl⟩ := hp
      rw [← Option.some.inj h, List.drop_left]
  · cases h

/-- The text from inside a section on, through the sections that follow directly, and
what is behind them. -/
def readSection : List Char → Option (List Char × List Char)
  | [] => none
  | c :: cs =>
      if terminator <+: c :: cs then
        if sectionStart <+: cs.drop 2 then readSection ((cs.drop 2).drop 9)
        else some ([], cs.drop 2)
      else (readSection cs).map fun (content, rest) => (c :: content, rest)
  termination_by cs => cs.length
  decreasing_by
  · simp only [List.drop_drop, List.length_drop, List.length_cons]
    omega
  · simp

/-- The text of the sections at the front, and what is behind them. -/
def readSections (cs : List Char) : Option (List Char × List Char) :=
  if sectionStart <+: cs then readSection (cs.drop 9) else some ([], cs)

/-- The text of an element that holds nothing but sections, and what is behind the
element. -/
def readPlainElement (name : String) (cs : List Char) : Option (List Char × List Char) := do
  let inner ← behind ("<" ++ name ++ ">").toList cs
  let (content, rest) ← readSections inner
  some (content, ← behind ("</" ++ name ++ ">").toList rest)

/-- How many terminators a text has. -/
def terminators : List Char → Nat
  | ']' :: ']' :: '>' :: r => terminators r + 1
  | _ :: r => terminators r
  | [] => 0

/-- A terminator lies across the end of one text and the start of the next. -/
def Straddles (a b : List Char) : Prop :=
  ∃ u v, u ≠ [] ∧ v ≠ [] ∧ u ++ v = terminator ∧ u <:+ a ∧ v <+: b

/-- A terminator in a text lies across two of the pieces the text is made of. -/
def Severed (pieces : List (List Char)) : Prop :=
  ∃ before after, pieces = before ++ after ∧ Straddles before.flatten after.flatten

/-! ## Terminators of a concatenation -/

theorem terminators_cons_of_not {c : Char} {cs : List Char} (h : ¬ terminator <+: c :: cs) :
    terminators (c :: cs) = terminators cs := by
  rw [terminators]
  rintro r rfl rfl
  exact h ⟨r, rfl⟩

theorem cdataChars_cons_of_not {c : Char} {cs : List Char} (h : ¬ terminator <+: c :: cs) :
    cdataChars (c :: cs) = c :: cdataChars cs := by
  rw [Storage.cdataChars.eq_def (c :: cs)]
  split
  · next r heq => exact absurd ⟨r, heq.symm⟩ h
  · next heq =>
      obtain ⟨rfl, rfl⟩ := List.cons.inj heq
      rfl
  · next heq => cases heq

theorem readSection_cons_of_not {c : Char} {cs : List Char} (h : ¬ terminator <+: c :: cs) :
    readSection (c :: cs) =
      (readSection cs).map fun (content, rest) => (c :: content, rest) := by
  rw [readSection, if_neg h]

theorem readSection_terminator (cs : List Char) :
    readSection (terminator ++ cs) = readSections cs := by
  have hp : terminator <+: ']' :: ']' :: '>' :: cs := ⟨cs, rfl⟩
  show readSection (']' :: ']' :: '>' :: cs) = readSections cs
  rw [readSection, if_pos hp]
  rfl

theorem readSections_sectionStart (cs : List Char) :
    readSections (sectionStart ++ cs) = readSection cs := by
  rw [readSections, if_pos ⟨cs, rfl⟩]
  rfl

/-- The ways to cut a terminator in two. -/
theorem append_eq_terminator {u v : List Char} (hu : u ≠ []) (hv : v ≠ [])
    (h : u ++ v = terminator) :
    (u = [']'] ∧ v = [']', '>']) ∨ (u = [']', ']'] ∧ v = ['>']) := by
  match u, hu with
  | [a], _ =>
      simp only [terminator, List.cons_append, List.nil_append, List.cons.injEq] at h
      obtain ⟨rfl, rfl⟩ := h
      exact Or.inl ⟨rfl, rfl⟩
  | [a, b], _ =>
      simp only [terminator, List.cons_append, List.nil_append, List.cons.injEq] at h
      obtain ⟨rfl, rfl, rfl⟩ := h
      exact Or.inr ⟨rfl, rfl⟩
  | a :: b :: c :: u, _ =>
      have hlength := congrArg List.length h
      have hpos := List.length_pos_iff.2 hv
      simp only [List.cons_append, List.length_cons, List.length_append, terminator,
        List.length_nil] at hlength
      omega

theorem straddles_iff {a b : List Char} :
    Straddles a b ↔
      ([']'] <:+ a ∧ [']', '>'] <+: b) ∨ ([']', ']'] <:+ a ∧ ['>'] <+: b) := by
  constructor
  · rintro ⟨u, v, hu, hv, huv, hsuffix, hprefix⟩
    rcases append_eq_terminator hu hv huv with ⟨rfl, rfl⟩ | ⟨rfl, rfl⟩
    · exact Or.inl ⟨hsuffix, hprefix⟩
    · exact Or.inr ⟨hsuffix, hprefix⟩
  · rintro (⟨hsuffix, hprefix⟩ | ⟨hsuffix, hprefix⟩)
    · exact ⟨_, _, by simp, by simp, rfl, hsuffix, hprefix⟩
    · exact ⟨_, _, by simp, by simp, rfl, hsuffix, hprefix⟩

theorem not_straddles_nil_left (b : List Char) : ¬ Straddles [] b := by
  simp [straddles_iff]

/-- A terminator at the front of a concatenation lies in its first part or across both. -/
theorem straddles_of_isPrefix {c : Char} {cs b : List Char} (hnot : ¬ terminator <+: c :: cs)
    (h : terminator <+: c :: (cs ++ b)) : Straddles (c :: cs) b := by
  rw [straddles_iff]
  match cs with
  | [] =>
      obtain ⟨t, ht⟩ := h
      simp only [terminator, List.cons_append, List.nil_append, List.cons.injEq] at ht
      obtain ⟨rfl, rfl⟩ := ht
      exact Or.inl ⟨List.suffix_rfl, t, rfl⟩
  | [d] =>
      obtain ⟨t, ht⟩ := h
      simp only [terminator, List.cons_append, List.nil_append, List.cons.injEq] at ht
      obtain ⟨rfl, rfl, rfl⟩ := ht
      exact Or.inr ⟨List.suffix_rfl, t, rfl⟩
  | d :: e :: cs =>
      obtain ⟨t, ht⟩ := h
      simp only [terminator, List.cons_append, List.nil_append, List.cons.injEq] at ht
      obtain ⟨rfl, rfl, rfl, -⟩ := ht
      exact absurd ⟨cs, rfl⟩ hnot

/-- What lies across the end of a text lies across the end of its tail, unless the whole
text is part of it. -/
theorem straddles_cons {c : Char} {cs b : List Char} (h : ¬ terminator <+: c :: (cs ++ b)) :
    Straddles (c :: cs) b ↔ Straddles cs b := by
  constructor
  · rintro ⟨u, v, hu, hv, huv, hsuffix, hprefix⟩
    rcases List.suffix_cons_iff.1 hsuffix with rfl | hsuffix
    · obtain ⟨t, rfl⟩ := hprefix
      exact absurd ⟨t, by rw [← huv, List.append_assoc, List.cons_append]⟩ h
    · exact ⟨u, v, hu, hv, huv, hsuffix, hprefix⟩
  · rintro ⟨u, v, hu, hv, huv, hsuffix, hprefix⟩
    exact ⟨u, v, hu, hv, huv, hsuffix.trans (List.suffix_cons c cs), hprefix⟩

/-- Only brackets of a text can be the start of a terminator that lies across its end. -/
theorem straddles_append_gt (a b c : List Char) :
    Straddles (a ++ '>' :: b) c ↔ Straddles b c := by
  constructor
  · rintro ⟨u, v, hu, hv, huv, hsuffix, hprefix⟩
    have hgt : '>' ∉ u := by
      rcases append_eq_terminator hu hv huv with ⟨rfl, -⟩ | ⟨rfl, -⟩ <;> decide
    have hb : b <:+ a ++ '>' :: b := ⟨a ++ ['>'], by simp⟩
    rcases List.suffix_or_suffix_of_suffix hsuffix hb with h | ⟨s, rfl⟩
    · exact ⟨u, v, hu, hv, huv, h, hprefix⟩
    · obtain ⟨t, ht⟩ := hsuffix
      rw [← List.append_assoc, ← List.singleton_append, ← List.append_assoc] at ht
      have hs : t ++ s = a ++ ['>'] := List.append_cancel_right ht
      cases s using List.reverseRecOn with
      | nil => exact ⟨b, v, hu, hv, huv, List.suffix_rfl, hprefix⟩
      | append_singleton s x =>
          rw [← List.append_assoc] at hs
          obtain ⟨-, hx⟩ := List.append_inj' hs rfl
          obtain rfl := List.singleton_inj.1 hx
          exact absurd (by simp) hgt
  · rintro ⟨u, v, hu, hv, huv, hsuffix, hprefix⟩
    exact ⟨u, v, hu, hv, huv, hsuffix.trans ⟨a ++ ['>'], by simp⟩, hprefix⟩

/-- What is left of a terminator after its first bracket is no terminator. -/
theorem terminators_of_cut (t : List Char) :
    terminators (']' :: '>' :: t) = terminators t ∧ terminators ('>' :: t) = terminators t := by
  have hgt : terminators ('>' :: t) = terminators t :=
    terminators_cons_of_not (by simp [terminator])
  have hbracket : terminators (']' :: '>' :: t) = terminators ('>' :: t) :=
    terminators_cons_of_not (by simp [terminator])
  exact ⟨hbracket.trans hgt, hgt⟩

/-- A terminator at the front of a concatenation and across its parts is one more than the
parts have. -/
theorem terminators_append_of_isPrefix {c : Char} {cs b : List Char}
    (hnot : ¬ terminator <+: c :: cs) (h : terminator <+: c :: (cs ++ b)) :
    terminators (c :: (cs ++ b)) = terminators cs + terminators b + 1 := by
  match cs with
  | [] =>
      obtain ⟨t, ht⟩ := h
      simp only [terminator, List.cons_append, List.nil_append, List.cons.injEq] at ht
      obtain ⟨rfl, rfl⟩ := ht
      show terminators t + 1 = 0 + terminators (']' :: '>' :: t) + 1
      rw [(terminators_of_cut t).1]
      omega
  | [d] =>
      obtain ⟨t, ht⟩ := h
      simp only [terminator, List.cons_append, List.nil_append, List.cons.injEq] at ht
      obtain ⟨rfl, rfl, rfl⟩ := ht
      show terminators t + 1 = terminators [']'] + terminators ('>' :: t) + 1
      rw [(terminators_of_cut t).2, terminators_cons_of_not (by simp [terminator])]
      show terminators t + 1 = 0 + terminators t + 1
      omega
  | d :: e :: cs =>
      obtain ⟨t, ht⟩ := h
      simp only [terminator, List.cons_append, List.nil_append, List.cons.injEq] at ht
      obtain ⟨rfl, rfl, rfl, -⟩ := ht
      exact absurd ⟨cs, rfl⟩ hnot

/-- The terminators of a concatenation: those of the parts, and one more if one lies
across. -/
theorem terminators_append (a b : List Char) :
    (Straddles a b → terminators (a ++ b) = terminators a + terminators b + 1) ∧
      (¬ Straddles a b → terminators (a ++ b) = terminators a + terminators b) := by
  fun_induction terminators a with
  | case1 r ih =>
      rw [show ']' :: ']' :: '>' :: r = [']', ']'] ++ '>' :: r from rfl, straddles_append_gt]
      show (_ → terminators (r ++ b) + 1 = _) ∧ (_ → terminators (r ++ b) + 1 = _)
      refine ⟨fun h => ?_, fun h => ?_⟩
      · rw [ih.1 h]; omega
      · rw [ih.2 h]; omega
  | case2 c r hnot ih =>
      have hnot' : ¬ terminator <+: c :: r := by
        rintro ⟨t, ht⟩
        simp only [terminator, List.cons_append, List.nil_append, List.cons.injEq] at ht
        exact hnot t ht.1.symm ht.2.symm
      by_cases h : terminator <+: c :: (r ++ b)
      · have hs := straddles_of_isPrefix hnot' h
        refine ⟨fun _ => ?_, fun hn => absurd hs hn⟩
        rw [List.cons_append, terminators_append_of_isPrefix hnot' h]
      · rw [straddles_cons h, List.cons_append, terminators_cons_of_not h]
        exact ih
  | case3 => simp [not_straddles_nil_left]

/-! ## Escaped text -/

theorem cdataChars_terminator (r : List Char) :
    cdataChars (terminator ++ r) =
      [']', ']'] ++ terminator ++ sectionStart ++ '>' :: cdataChars r := rfl

/-- Escaping keeps the first character. -/
theorem head?_cdataChars (cs : List Char) : (cdataChars cs).head? = cs.head? := by
  cases cs with
  | nil => rfl
  | cons c cs =>
      by_cases h : terminator <+: c :: cs
      · obtain ⟨t, ht⟩ := h
        rw [← ht]
        rfl
      · rw [cdataChars_cons_of_not h]
        rfl

/-- Escaping brings no bracket in front of a `>`. -/
theorem isPrefix_of_isPrefix_cdataChars {cs t : List Char}
    (h : [']', '>'] <+: cdataChars cs ++ (terminator ++ t)) : [']', '>'] <+: cs := by
  match cs with
  | [] =>
      obtain ⟨u, hu⟩ := h
      cases hu
  | [c] =>
      obtain ⟨u, hu⟩ := h
      rw [cdataChars_cons_of_not (by simp [terminator])] at hu
      cases hu
  | c :: d :: cs =>
      by_cases hp : terminator <+: c :: d :: cs
      · obtain ⟨r, hr⟩ := hp
        obtain ⟨u, hu⟩ := h
        rw [← hr] at hu
        cases hu
      · obtain ⟨u, hu⟩ := h
        rw [cdataChars_cons_of_not hp] at hu
        have hhead := head?_cdataChars (d :: cs)
        cases hcd : cdataChars (d :: cs) with
        | nil => simp [hcd] at hhead
        | cons e es =>
            rw [hcd] at hu hhead
            obtain rfl : e = d := by simpa using hhead
            simp only [List.cons_append, List.nil_append, List.cons.injEq] at hu
            obtain ⟨rfl, rfl, -⟩ := hu
            exact ⟨cs, rfl⟩

/-- Text escaped as a whole is read back as it is. -/
theorem readSection_cdataChars (cs t : List Char) :
    readSection (cdataChars cs ++ (terminator ++ t)) =
      (readSections t).map fun (content, rest) => (cs ++ content, rest) := by
  fun_induction cdataChars cs with
  | case1 r ih =>
      -- a cut is read as the terminator it was made for
      have hcut : ∀ x : List Char,
          readSection (']' :: ']' :: (terminator ++ (sectionStart ++ '>' :: x))) =
            (readSection x).map fun (content, rest) => (terminator ++ content, rest) := by
        intro x
        rw [readSection_cons_of_not (by simp [terminator]),
          readSection_cons_of_not (by simp [terminator]), readSection_terminator,
          readSections_sectionStart, readSection_cons_of_not (by simp [terminator])]
        simp [Option.map_map, Function.comp_def, terminator]
      show readSection
        (']' :: ']' :: (terminator ++ (sectionStart ++ '>' ::
          (cdataChars r ++ (terminator ++ t))))) = _
      rw [hcut, ih]
      simp [Option.map_map, Function.comp_def, terminator]
  | case2 c r hnot ih =>
      have hfront : ¬ terminator <+: c :: (cdataChars r ++ (terminator ++ t)) := by
        rintro ⟨u, hu⟩
        simp only [terminator, List.cons_append, List.nil_append, List.cons.injEq] at hu
        obtain ⟨rfl, hu⟩ := hu
        obtain ⟨r', rfl⟩ := isPrefix_of_isPrefix_cdataChars ⟨u, hu⟩
        exact hnot r' rfl rfl
      rw [List.cons_append, readSection_cons_of_not hfront, ih]
      simp [Option.map_map, Function.comp_def]
  | case3 =>
      rw [List.nil_append, readSection_terminator]
      simp

/-- Pieces that share no terminator may be escaped one by one. -/
theorem cdataChars_append {a b : List Char} (h : ¬ Straddles a b) :
    cdataChars (a ++ b) = cdataChars a ++ cdataChars b := by
  fun_induction cdataChars a with
  | case1 r ih =>
      rw [show ']' :: ']' :: '>' :: r = [']', ']'] ++ '>' :: r from rfl,
        straddles_append_gt] at h
      show cdataChars (terminator ++ (r ++ b)) = _
      rw [cdataChars_terminator, ih h]
      simp [terminator, sectionStart]
  | case2 c r hnot ih =>
      have hnot' : ¬ terminator <+: c :: r := by
        rintro ⟨t, ht⟩
        simp only [terminator, List.cons_append, List.nil_append, List.cons.injEq] at ht
        exact hnot t ht.1.symm ht.2.symm
      have hfront : ¬ terminator <+: c :: (r ++ b) :=
        fun hp => h (straddles_of_isPrefix hnot' hp)
      rw [straddles_cons hfront] at h
      rw [List.cons_append, cdataChars_cons_of_not hfront, ih h, List.cons_append]
  | case3 => rfl

theorem length_cdataChars (cs : List Char) :
    (cdataChars cs).length = cs.length + 12 * terminators cs := by
  fun_induction cdataChars cs with
  | case1 r ih =>
      show (cdataChars (terminator ++ r)).length = _
      rw [cdataChars_terminator]
      simp only [List.length_append, List.length_cons, terminator, sectionStart, terminators,
        List.length_nil, ih]
      omega
  | case2 c r hnot ih =>
      rw [terminators]
      · simp only [List.length_cons, ih]
        omega
      · exact hnot
  | case3 => rfl

/-! ## Text escaped in pieces -/

theorem not_severed_nil : ¬ Severed [] := by
  rintro ⟨before, after, h, hstraddles⟩
  obtain ⟨rfl, rfl⟩ := List.nil_eq_append_iff.1 h
  exact not_straddles_nil_left _ hstraddles

/-- Terminators lie across the first piece and the others, or among the others. -/
theorem severed_cons {p : List Char} {ps : List (List Char)} :
    Severed (p :: ps) ↔ Straddles p ps.flatten ∨ Severed ps := by
  constructor
  · rintro ⟨before, after, hpieces, u, v, hu, hv, huv, hsuffix, hprefix⟩
    cases before with
    | nil =>
        rw [List.flatten_nil, List.suffix_nil] at hsuffix
        exact absurd hsuffix hu
    | cons q before =>
        obtain ⟨rfl, rfl⟩ := List.cons.inj hpieces
        rw [List.flatten_cons] at hsuffix
        -- the front of the terminator lies in the other pieces, or reaches back into the first
        rcases List.suffix_or_suffix_of_suffix hsuffix (List.suffix_append p before.flatten)
          with h | ⟨u', rfl⟩
        · exact Or.inr ⟨before, after, rfl, u, v, hu, hv, huv, h, hprefix⟩
        · by_cases hu' : u' = []
          · subst hu'
            exact Or.inr ⟨before, after, rfl, before.flatten, v, hu, hv, huv,
              List.suffix_rfl, hprefix⟩
          · obtain ⟨t, ht⟩ := hsuffix
            rw [← List.append_assoc] at ht
            refine Or.inl ⟨u', before.flatten ++ v, hu', by simp [hv], ?_, ⟨t, ?_⟩, ?_⟩
            · rw [← huv, List.append_assoc]
            · exact List.append_cancel_right ht
            · show before.flatten ++ v <+: (before ++ after).flatten
              rw [List.flatten_append]
              exact (List.prefix_append_right_inj _).2 hprefix
  · rintro (h | ⟨before, after, rfl, u, v, hu, hv, huv, hsuffix, hprefix⟩)
    · exact ⟨[p], ps, rfl, by simpa using h⟩
    · refine ⟨p :: before, after, rfl, u, v, hu, hv, huv, ?_, hprefix⟩
      rw [List.flatten_cons]
      exact hsuffix.trans (List.suffix_append p before.flatten)

/-- The terminators of a text in pieces are those of the pieces and the severed ones. -/
theorem sum_terminators (pieces : List (List Char)) :
    (pieces.map terminators).sum ≤ terminators pieces.flatten ∧
      ((pieces.map terminators).sum = terminators pieces.flatten ↔ ¬ Severed pieces) := by
  induction pieces with
  | nil => exact ⟨Nat.le_refl 0, by simp [terminators, not_severed_nil]⟩
  | cons p ps ih =>
      obtain ⟨hle, hiff⟩ := ih
      obtain ⟨hacross, hapart⟩ := terminators_append p ps.flatten
      rw [severed_cons, List.map_cons, List.sum_cons, List.flatten_cons, not_or, ← hiff]
      by_cases h : Straddles p ps.flatten
      · have := hacross h
        exact ⟨by omega, by simp only [h, not_true, false_and, iff_false]; omega⟩
      · have := hapart h
        exact ⟨by omega, by simp only [h, not_false_iff, true_and]; omega⟩

/-- Pieces that sever no terminator are escaped as their text is as a whole. -/
theorem cdataChars_flatten {pieces : List (List Char)} (h : ¬ Severed pieces) :
    (pieces.map cdataChars).flatten = cdataChars pieces.flatten := by
  induction pieces with
  | nil => rfl
  | cons p ps ih =>
      rw [severed_cons, not_or] at h
      rw [List.map_cons, List.flatten_cons, List.flatten_cons, ih h.2, cdataChars_append h.1]

/-- A `>` ends what lies in front of it. -/
theorem terminators_append_gt (a b : List Char) :
    terminators (a ++ '>' :: b) = terminators (a ++ ['>']) + terminators b := by
  have h : ¬ Straddles (a ++ ['>']) b := by
    rw [straddles_append_gt]
    exact not_straddles_nil_left b
  rw [← (terminators_append _ _).2 h, List.append_assoc, List.singleton_append]

/-- A terminator counts behind every text. -/
theorem terminators_append_terminator (a : List Char) :
    terminators (a ++ terminator) = terminators a + 1 := by
  have h : ¬ Straddles a terminator := by
    rw [straddles_iff]
    simp [terminator]
  rw [(terminators_append _ _).2 h]
  rfl

/-- Escaping brings no terminator and takes none away, wherever the text stands. -/
theorem terminators_cdataChars (p cs t : List Char) :
    terminators (p ++ (cdataChars cs ++ t)) = terminators (p ++ (cs ++ t)) := by
  fun_induction cdataChars cs generalizing p with
  | case1 r ih =>
      -- a terminator cannot share characters with another, so it counts by itself
      have hleft : ∀ q x : List Char,
          terminators (q ++ (terminator ++ x)) = terminators q + 1 + terminators x := by
        intro q x
        rw [show q ++ (terminator ++ x) = (q ++ [']', ']']) ++ '>' :: x by simp [terminator],
          terminators_append_gt, List.append_assoc]
        show terminators (q ++ terminator) + _ = _
        rw [terminators_append_terminator]
      have hbrackets : terminators (p ++ [']', ']']) = terminators p := by
        have h : ¬ Straddles p [']', ']'] := by
          rw [straddles_iff]
          simp
        rw [(terminators_append _ _).2 h]
        rfl
      show terminators (p ++ (cdataChars (terminator ++ r) ++ t)) =
        terminators (p ++ (terminator ++ (r ++ t)))
      rw [cdataChars_terminator, hleft]
      have hregroup : p ++ ([']', ']'] ++ terminator ++ sectionStart ++ '>' :: cdataChars r ++ t) =
          (p ++ [']', ']']) ++ (terminator ++ (sectionStart ++ '>' :: (cdataChars r ++ t))) := by
        simp
      rw [hregroup, hleft, hbrackets, terminators_append_gt, ← List.nil_append (_ ++ t), ih []]
      have hstart : terminators (sectionStart ++ ['>']) = 0 := by decide
      rw [hstart, Nat.zero_add, List.nil_append]
  | case2 c r hnot ih =>
      have := ih (p ++ [c])
      simpa using this
  | case3 => rfl

theorem terminators_map_cdataChars (pieces : List (List Char)) (p t : List Char) :
    terminators (p ++ ((pieces.map cdataChars).flatten ++ t)) =
      terminators (p ++ (pieces.flatten ++ t)) := by
  induction pieces generalizing p with
  | nil => rfl
  | cons q ps ih =>
      have := ih (p ++ q)
      simp only [List.append_assoc] at this
      simp only [List.map_cons, List.flatten_cons, List.append_assoc]
      rw [terminators_cdataChars, this]

theorem length_map_cdataChars (pieces : List (List Char)) :
    (pieces.map cdataChars).flatten.length =
      pieces.flatten.length + 12 * (pieces.map terminators).sum := by
  induction pieces with
  | nil => rfl
  | cons p ps ih =>
      simp only [List.map_cons, List.flatten_cons, List.length_append, List.sum_cons,
        length_cdataChars, ih]
      omega

/-! ## Reading back -/

theorem terminators_terminator (cs : List Char) :
    terminators (terminator ++ cs) = terminators cs + 1 := rfl

theorem terminators_sectionStart (cs : List Char) :
    terminators (sectionStart ++ cs) = terminators cs := rfl

/-- Every terminator but those left over ends a section, and the next one starts with nine
more characters. -/
theorem length_of_readSection {cs content rest : List Char}
    (h : readSection cs = some (content, rest)) :
    content.length + 12 * terminators cs + rest.length =
      cs.length + 9 + 12 * terminators rest := by
  fun_induction readSection cs generalizing content with
  | case1 => cases h
  | case2 c cs hend hstart ih =>
      have := ih h
      obtain ⟨x, hx⟩ := hend
      rw [← hx]
      obtain ⟨y, rfl⟩ : ∃ y, x = sectionStart ++ y := by
        obtain ⟨y, hy⟩ := hstart
        have htail : cs = ']' :: '>' :: x := (List.cons.inj hx).2.symm
        rw [htail] at hy
        exact ⟨y, hy.symm⟩
      have hrest : (cs.drop 2).drop 9 = y := by
        have htail : cs = ']' :: '>' :: (sectionStart ++ y) := (List.cons.inj hx).2.symm
        rw [htail]
        rfl
      rw [hrest] at this
      rw [terminators_terminator, terminators_sectionStart]
      simp only [List.length_append, terminator, sectionStart, List.length_cons,
        List.length_nil]
      omega
  | case3 c cs hend hstart =>
      obtain ⟨x, hx⟩ := hend
      have htail : cs = ']' :: '>' :: x := (List.cons.inj hx).2.symm
      rw [← hx, terminators_terminator]
      obtain ⟨rfl, rfl⟩ : content = [] ∧ cs.drop 2 = rest := by
        simp only [Option.some.injEq, Prod.mk.injEq] at h
        exact ⟨h.1.symm, h.2⟩
      rw [htail]
      simp only [List.length_append, terminator, List.length_cons, List.length_nil,
        List.drop_succ_cons, List.drop_zero]
      omega
  | case4 c cs hend ih =>
      obtain ⟨⟨content', rest'⟩, hread, heq⟩ := Option.map_eq_some_iff.1 h
      obtain ⟨rfl, rfl⟩ := Prod.mk.inj heq
      have := ih hread
      rw [terminators_cons_of_not hend]
      simp only [List.length_cons]
      omega

/-- Text written in pieces is read back as it is exactly if no terminator is severed. What
is written behind must end neither in nor as a section. -/
theorem readSections_map_cdataChars {pieces : List (List Char)} {rest : List Char}
    (hrest : ¬ sectionStart <+: rest) :
    readSections (sectionStart ++ ((pieces.map cdataChars).flatten ++ (terminator ++ rest))) =
        some (pieces.flatten, rest) ↔
      ¬ Severed pieces := by
  rw [readSections_sectionStart]
  constructor
  · intro h
    have hcount := length_of_readSection h
    have hwritten := terminators_map_cdataChars pieces [] (terminator ++ rest)
    have hbehind : terminators (pieces.flatten ++ (terminator ++ rest)) =
        terminators pieces.flatten + 1 + terminators rest := by
      have hregroup : pieces.flatten ++ (terminator ++ rest) =
          (pieces.flatten ++ [']', ']']) ++ '>' :: rest := by simp [terminator]
      rw [hregroup, terminators_append_gt, List.append_assoc]
      show terminators (pieces.flatten ++ terminator) + _ = _
      rw [terminators_append_terminator]
    rw [List.nil_append, List.nil_append] at hwritten
    rw [hwritten, hbehind] at hcount
    simp only [List.length_append, length_map_cdataChars, terminator, List.length_cons,
      List.length_nil] at hcount
    exact (sum_terminators pieces).2.1 (by omega)
  · intro h
    rw [cdataChars_flatten h, readSection_cdataChars, readSections, if_neg hrest]
    simp

/-- An element written around text in pieces is read back as it is exactly if no terminator
is severed. -/
theorem readPlainElement_map_cdataChars (name : String) (pieces : List (List Char))
    (rest : List Char) :
    readPlainElement name (("<" ++ name ++ ">").toList ++
        (sectionStart ++ ((pieces.map cdataChars).flatten ++
          (terminator ++ (("</" ++ name ++ ">").toList ++ rest))))) =
        some (pieces.flatten, rest) ↔
      ¬ Severed pieces := by
  have hclose : ¬ sectionStart <+: ("</" ++ name ++ ">").toList ++ rest := by
    rintro ⟨t, ht⟩
    simp [sectionStart] at ht
  rw [← readSections_map_cdataChars hclose, readPlainElement, behind_append]
  simp only [Option.bind_eq_bind, Option.bind_some]
  constructor
  · intro h
    obtain ⟨⟨content, rest'⟩, hread, h⟩ := Option.bind_eq_some_iff.1 h
    obtain ⟨rest'', hbehind, h⟩ := Option.bind_eq_some_iff.1 h
    obtain ⟨rfl, rfl⟩ : content = pieces.flatten ∧ rest'' = rest := by simpa using h
    have hrest : rest' = ("</" ++ name ++ ">").toList ++ rest'' := eq_append_of_behind hbehind
    rw [hread, hrest]
  · intro h
    rw [h, Option.bind_some, behind_append, Option.bind_some]

end WikiPress.Xml
