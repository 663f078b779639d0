import WikiPress.Proofs.Xml.Escaped

/-!
# WikiPress.Proofs.Xml.StartTags

The elements that are started in a text.

Design points:

* `startTags` takes a text as markup or as the inside of a section, and skips what stands in
  sections. It asks for no more than that: the text may be a piece of a document, and end
  tags need not match.
* What a text starts is what its parts start, provided that no part ends inside of a name.
  `Starts` says so for a part whatever is behind it, so texts are put together from
  literals, for which it holds by evaluation (`starts_literal`), and from escaped text, which
  starts nothing.
-/

namespace WikiPress.Xml

open WikiPress.Storage (cdataChars)

/-- Where one more character of a section leads, behind some brackets: none at its end. -/
def sectionAfter (brackets : Nat) (c : Char) : Option Nat :=
  if c = ']' then some (min 2 (brackets + 1))
  else if c = '>' ∧ brackets = 2 then none
  else some 0

/-- The names of the start tags in a text, which begins in markup or in a section behind
some brackets. -/
def startTags : Option Nat → List Char → List (List Char)
  | none, '<' :: '!' :: '[' :: 'C' :: 'D' :: 'A' :: 'T' :: 'A' :: '[' :: cs => startTags (some 0) cs
  | none, '<' :: cs =>
      match cs.takeWhile isNameChar with
      | [] => startTags none cs
      | c :: name => (c :: name) :: startTags none cs
  | none, _ :: cs => startTags none cs
  | some brackets, c :: cs => startTags (sectionAfter brackets c) cs
  | _, [] => []

/-- A piece of markup starts some elements, whatever is behind it. -/
def Starts (s : String) (names : List (List Char)) : Prop :=
  ∀ rest, startTags none (s.toList ++ rest) = names ++ startTags none rest

theorem startTags_of_not_mem {cs : List Char} (h : '<' ∉ cs) (rest : List Char) :
    startTags none (cs ++ rest) = startTags none rest := by
  induction cs with
  | nil => rfl
  | cons c cs ih =>
      obtain ⟨hc, hcs⟩ := not_or.1 (List.mem_cons.not.1 h)
      rw [List.cons_append, startTags, ih hcs]
      · rintro r rfl
        exact absurd rfl hc
      · rintro rfl
        exact absurd rfl hc

/-- A text ends behind a name, and there are no sections in it. -/
def EndsApart (cs : List Char) : Prop :=
  '!' ∉ cs ∧ ∃ c ∈ cs.getLast?, isNameChar c = false ∧ c ≠ '<'

instance (cs : List Char) : Decidable (EndsApart cs) :=
  decidable_of_iff ('!' ∉ cs ∧ cs.getLast?.any (fun c => !isNameChar c && c != '<') = true) (by
    simp [EndsApart, Option.any_eq_true])

theorem startTags_lt {cs : List Char} (h : cs.head? ≠ some '!') :
    startTags none ('<' :: cs) =
      (match cs.takeWhile isNameChar with
        | [] => startTags none cs
        | c :: name => (c :: name) :: startTags none cs) := by
  rw [startTags]
  rintro r rfl
  exact absurd rfl h

/-- Names do not go on behind a character that belongs to none. -/
theorem takeWhile_append_of_getLast {cs : List Char} {c : Char} (hlast : cs.getLast? = some c)
    (hc : isNameChar c = false) (rest : List Char) :
    (cs ++ rest).takeWhile isNameChar = cs.takeWhile isNameChar := by
  obtain ⟨front, rfl⟩ := List.getLast?_eq_some_iff.1 hlast
  induction front with
  | nil => simp [hc]
  | cons d front ih =>
      have htail := ih (by simp)
      rw [List.cons_append, List.cons_append, List.takeWhile_cons, List.takeWhile_cons, htail]

theorem startTags_append {cs : List Char} (h : EndsApart cs) (rest : List Char) :
    startTags none (cs ++ rest) = startTags none cs ++ startTags none rest := by
  obtain ⟨hsections, c, hlast, hc, hlt⟩ := h
  induction cs with
  | nil => cases hlast
  | cons d cs ih =>
      obtain ⟨hd, htail⟩ := not_or.1 (List.mem_cons.not.1 hsections)
      cases cs with
      | nil =>
          obtain rfl : d = c := by simpa using hlast
          have hnot : '<' ∉ [d] := by simpa using Ne.symm hlt
          have hone : startTags none [d] = [] := startTags_of_not_mem hnot []
          rw [startTags_of_not_mem hnot, hone, List.nil_append]
      | cons d' cs =>
          have hlast' : (d' :: cs).getLast? = some c := by simpa using hlast
          have hrest := ih htail hlast'
          by_cases hopen : d = '<'
          · subst hopen
            have hfront : (d' :: cs).head? ≠ some '!' := by
              intro heq
              obtain rfl := Option.some.inj heq
              exact htail List.mem_cons_self
            have hwhole : (d' :: cs ++ rest).head? ≠ some '!' := hfront
            have hname := takeWhile_append_of_getLast hlast' hc rest
            rw [List.cons_append, startTags_lt hfront, startTags_lt hwhole, hname, hrest]
            cases (d' :: cs).takeWhile isNameChar <;> rfl
          · have hplain : '<' ∉ [d] := by simpa using Ne.symm hopen
            have hone : ∀ t, startTags none (d :: t) = startTags none t :=
              startTags_of_not_mem hplain
            rw [List.cons_append, hone, hone, hrest]

/-! ## Putting texts together -/

/-- What a literal starts is settled by evaluation. -/
theorem starts_literal {s : String} (h : EndsApart s.toList) :
    Starts s (startTags none s.toList) := startTags_append h

theorem Starts.eq {s : String} {names : List (List Char)} (h : Starts s names) :
    startTags none s.toList = names := by
  have hrest := h []
  rwa [List.append_nil, show startTags none [] = [] from rfl, List.append_nil] at hrest

theorem Starts.append {a b : String} {names names' : List (List Char)} (ha : Starts a names)
    (hb : Starts b names') : Starts (a ++ b) (names ++ names') := by
  intro rest
  rw [String.toList_append, List.append_assoc, ha, hb, List.append_assoc]

theorem starts_of_not_mem {s : String} (h : '<' ∉ s.toList) : Starts s [] :=
  startTags_of_not_mem h

/-- Escaped text starts nothing. -/
theorem starts_escape (s : String) : Starts (escape s) [] := by
  refine starts_of_not_mem ?_
  rw [toList_escape]
  exact not_mem_escapeChars (by decide) _

/-- A piece of markup starts only elements with names of some kind. -/
def StartsOnly (allowed : List Char → Prop) (s : String) : Prop :=
  ∃ names, Starts s names ∧ ∀ name ∈ names, allowed name

namespace StartsOnly

variable {allowed : List Char → Prop} {a b : String}

theorem of_not_mem (h : '<' ∉ a.toList) : StartsOnly allowed a :=
  ⟨[], starts_of_not_mem h, by simp⟩

theorem literal (h : EndsApart a.toList ∧ ∀ name ∈ startTags none a.toList, allowed name) :
    StartsOnly allowed a := ⟨_, starts_literal h.1, h.2⟩

theorem empty : StartsOnly allowed "" := of_not_mem (by decide)

theorem escape (s : String) : StartsOnly allowed (Xml.escape s) :=
  ⟨[], starts_escape s, by simp⟩

theorem append (ha : StartsOnly allowed a) (hb : StartsOnly allowed b) :
    StartsOnly allowed (a ++ b) := by
  obtain ⟨names, hnames, hall⟩ := ha
  obtain ⟨names', hnames', hall'⟩ := hb
  exact ⟨names ++ names', hnames.append hnames', List.forall_mem_append.2 ⟨hall, hall'⟩⟩

theorem mono {allowed' : List Char → Prop} (h : StartsOnly allowed a)
    (hle : ∀ name, allowed name → allowed' name) : StartsOnly allowed' a := by
  obtain ⟨names, hnames, hall⟩ := h
  exact ⟨names, hnames, fun name hname => hle name (hall name hname)⟩

/-- What a piece of markup starts by itself has names of the kind. -/
theorem of_mem (h : StartsOnly allowed a) {name : List Char}
    (hname : name ∈ startTags none a.toList) : allowed name := by
  obtain ⟨names, hnames, hall⟩ := h
  exact hall name (hnames.eq ▸ hname)

end StartsOnly

/-! ## Sections -/

/-- One character of a section that completes no terminator and begins none. -/
theorem sectionAfter_of_continues {brackets : Nat} {c : Char} {cs : List Char}
    (h : Continues brackets (c :: cs)) (hnot : ¬ terminator <+: c :: cs) :
    ∃ n, sectionAfter brackets c = some n ∧ Continues n cs := by
  obtain ⟨hstep, hcontinues⟩ := @Reader.step_section brackets c cs [] h hnot
  refine ⟨_, ?_, hcontinues⟩
  have hgt : ¬ (c = '>' ∧ brackets = 2) := by
    rintro ⟨rfl, hbrackets⟩
    exact h.1 hbrackets ⟨cs, rfl⟩
  unfold sectionAfter
  by_cases hc : c = ']'
  · rw [if_pos hc, if_pos hc]
  · rw [if_neg hc, if_neg hc, if_neg hgt]

theorem startTags_brackets (brackets : Nat) (rest : List Char) :
    startTags (some brackets) (']' :: ']' :: rest) = startTags (some 2) rest := by
  have htwo : min 2 (min 2 (brackets + 1) + 1) = 2 := by omega
  show startTags (some (min 2 (min 2 (brackets + 1) + 1))) rest = _
  rw [htwo]

/-- Text that is escaped for a section starts nothing, and what is behind it is behind it in
the section. -/
theorem startTags_cdataChars {brackets : Nat} {cs : List Char} (h : Continues brackets cs)
    (rest : List Char) :
    ∃ n, startTags (some brackets) (cdataChars cs ++ rest) = startTags (some n) rest := by
  fun_induction cdataChars cs generalizing brackets with
  | case1 r ih =>
      -- the terminator is cut by the end of one section and the start of the next
      obtain ⟨n, hrest⟩ := ih (continues_zero r)
      refine ⟨n, ?_⟩
      show startTags (some brackets)
        (']' :: ']' :: (terminator ++ (sectionStart ++ '>' :: (cdataChars r ++ rest)))) = _
      rw [startTags_brackets]
      exact hrest
  | case2 c r hnot ih =>
      have hfront : ¬ terminator <+: c :: r := by
        rintro ⟨t, ht⟩
        simp only [terminator, List.cons_append, List.nil_append, List.cons.injEq] at ht
        exact hnot t ht.1.symm ht.2.symm
      obtain ⟨n, hstep, hcontinues⟩ := sectionAfter_of_continues h hfront
      obtain ⟨m, hrest⟩ := ih hcontinues
      refine ⟨m, ?_⟩
      rw [List.cons_append, startTags, hstep]
      exact hrest
  | case3 => exact ⟨brackets, rfl⟩

/-- A section ends at the terminator that is written behind it. -/
theorem startTags_section_end (brackets : Nat) (rest : List Char) :
    startTags (some brackets) (terminator ++ rest) = startTags none rest := by
  show startTags (some brackets) (']' :: ']' :: '>' :: rest) = _
  rw [startTags_brackets]
  rfl

end WikiPress.Xml
