import WikiPress.Proofs.Xml.Reader

/-!
# WikiPress.Proofs.Xml.Escaped

Escaped text, alone and between known characters, read back.

Design points:

* The text between a start and a stop goes up to the first character of the stop, and its
  entities are read back. Escaped text holds no character that begins or ends a tag or a value,
  so the reader stops where the writer did (`readBetween_escapeChars`).
* Reading the entities back undoes the escaping one character at a time
  (`unescapeChars_escapeChar`), whatever follows.
* Escaping undoes the reading as well, where the text is `Inert`. So the escaped text is the only
  inert text that is read as the text it was made from (`eq_escape_iff`).
-/

namespace WikiPress.Xml

/-- The characters that begin or end tags and values. -/
def markupChars : List Char := ['<', '>', '"', '\'']

/-- Reads the five entities of a text back, left to right. -/
def unescape (s : String) : String := String.ofList (unescapeChars s.toList)

/-- The escaped text between a start and a stop, and what is behind the stop. -/
def readBetween (start stop : String) (cs : List Char) : Option (List Char × List Char) := do
  let inner ← behind start.toList cs
  let boundary ← stop.toList.head?
  let rest ← behind stop.toList (inner.dropWhile (· ≠ boundary))
  some (unescapeChars (inner.takeWhile (· ≠ boundary)), rest)

/-! ## Entities -/

/-- An entity is read as the character it was written for. -/
theorem unescapeChars_escapeChar (c : Char) (r : List Char) :
    unescapeChars (escapeChar c ++ r) = c :: unescapeChars r := by
  unfold escapeChar
  split
  · rfl
  · rfl
  · rfl
  · rfl
  · rfl
  · next hamp _ _ _ _ =>
      -- only an `&` begins an entity
      rw [List.singleton_append, unescapeChars.eq_def]
      split
      all_goals next heq => first
        | exact absurd (List.cons.inj heq).1 hamp
        | (obtain ⟨rfl, rfl⟩ := List.cons.inj heq; rfl)
        | cases heq

/-- Escaped text stands for the text it was made from. -/
theorem unescapeChars_escapeChars (cs : List Char) : unescapeChars (escapeChars cs) = cs := by
  induction cs with
  | nil => rfl
  | cons c cs ih => rw [escapeChars_cons, unescapeChars_escapeChar, ih]

theorem unescape_escape (s : String) : unescape (escape s) = s := by
  rw [unescape, toList_escape, unescapeChars_escapeChars, String.ofList_toList]

/-- A text is known by its escaped form. -/
theorem escape_inj {s t : String} (h : escape s = escape t) : s = t := by
  rw [← unescape_escape s, h, unescape_escape]

theorem not_mem_escapeChar {c : Char} (h : c ∈ markupChars) (d : Char) : c ∉ escapeChar d := by
  rcases escapeChar_cases d with hentity | ⟨hplain, -, hlt, hgt, hquote, hapostrophe⟩
  · have hentities : ∀ e ∈ entities.map (fun name => '&' :: name ++ [';']),
        markupChars.all (· ∉ e) = true := by decide
    exact of_decide_eq_true (List.all_eq_true.1 (hentities _ hentity) c h)
  · rw [hplain, List.mem_singleton]
    rintro rfl
    simp [markupChars, hlt, hgt, hquote, hapostrophe] at h

theorem escapeChar_of_plain {c : Char} (hamp : c ≠ '&') (h : c ∉ markupChars) :
    escapeChar c = [c] := by
  unfold escapeChar
  split
  · exact absurd rfl hamp
  · exact absurd (by decide) h
  · exact absurd (by decide) h
  · exact absurd (by decide) h
  · exact absurd (by decide) h
  · rfl

/-- The characters that begin or end tags and values are not left in escaped text. -/
theorem not_mem_escapeChars {c : Char} (h : c ∈ markupChars) (cs : List Char) :
    c ∉ escapeChars cs := by
  intro hmem
  obtain ⟨d, -, hd⟩ := List.mem_flatMap.1 hmem
  exact not_mem_escapeChar h d hd

/-! ## Inert text -/

/-- Text in which a reader finds no markup: nothing that begins or ends a tag or a value, and
no `&` but those that begin one of the five entities. -/
structure Inert (cs : List Char) : Prop where
  unmarked : ∀ c ∈ markupChars, c ∉ cs
  entity : ∀ rest, '&' :: rest <:+ cs → ∃ name ∈ entities, name ++ [';'] <+: rest

section

variable {as bs : List Char}

theorem inert_iff_tails : Inert as ↔
    markupChars.all (· ∉ as) = true ∧
      ∀ rest ∈ as.tails.map List.tail, '&' :: rest <:+ as →
        ∃ name ∈ entities, name ++ [';'] <+: rest := by
  constructor
  · intro h
    refine ⟨List.all_eq_true.2 fun c hc => ?_, fun rest _ hrest => h.entity rest hrest⟩
    exact decide_eq_true (h.unmarked c hc)
  · intro ⟨hunmarked, hentity⟩
    refine ⟨fun c hc => ?_, fun rest hrest => hentity rest ?_ hrest⟩
    · exact of_decide_eq_true (List.all_eq_true.1 hunmarked c hc)
    · exact List.mem_map.2 ⟨_, (List.mem_tails _ _).2 hrest, rfl⟩

instance (as : List Char) : Decidable (Inert as) := decidable_of_iff _ inert_iff_tails.symm

/-- An end that begins with a character the front has not lies behind the front. -/
theorem suffix_of_not_mem {c : Char} {rest : List Char} (hnot : c ∉ as)
    (h : c :: rest <:+ as ++ bs) : c :: rest <:+ bs := by
  induction as with
  | nil => exact h
  | cons a as ih =>
      obtain ⟨hne, hnot⟩ := not_or.1 (List.mem_cons.not.1 hnot)
      rw [List.cons_append, List.suffix_cons_iff] at h
      rcases h with heq | hrest
      · exact absurd (List.cons.inj heq).1 hne
      · exact ih hnot hrest

namespace Inert

theorem nil : Inert [] := by
  refine ⟨fun c _ => List.not_mem_nil, fun rest h => ?_⟩
  cases List.suffix_nil.1 h

theorem of_suffix (h : Inert bs) (hs : as <:+ bs) : Inert as :=
  ⟨fun c hc hmem => h.unmarked c hc (hs.mem hmem), fun rest hr => h.entity rest (hr.trans hs)⟩

theorem tail {c : Char} (h : Inert (c :: as)) : Inert as := h.of_suffix (List.suffix_cons c as)

/-- One escaped character in front of inert text. -/
theorem escapeChar_append (c : Char) (h : Inert as) : Inert (escapeChar c ++ as) := by
  refine ⟨fun d hd hmem => ?_, fun rest hrest => ?_⟩
  · rcases List.mem_append.1 hmem with hfront | hback
    · exact not_mem_escapeChar hd c hfront
    · exact h.unmarked d hd hback
  · rcases escapeChar_cases c with hentity | ⟨hplain, hamp, -⟩
    · obtain ⟨name, hname, heq⟩ := List.mem_map.1 hentity
      rw [← heq, List.cons_append, List.cons_append, List.suffix_cons_iff] at hrest
      rcases hrest with hwhole | hlater
      · exact ⟨name, hname, as, (List.cons.inj hwhole).2.symm⟩
      · -- no second `&` stands in an entity
        have hnot : ∀ name ∈ entities, '&' ∉ name ++ [';'] := by decide
        exact h.entity rest (suffix_of_not_mem (hnot name hname) hlater)
    · rw [hplain] at hrest
      have hnot : '&' ∉ [c] := by simpa using Ne.symm hamp
      exact h.entity rest (suffix_of_not_mem hnot hrest)

/-- Inert text is the written form of what is read from it. -/
theorem escapeChars_unescapeChars (h : Inert as) : escapeChars (unescapeChars as) = as := by
  fun_induction unescapeChars as with
  | case1 r ih | case2 r ih | case3 r ih | case4 r ih | case5 r ih =>
      rw [escapeChars_cons, ih (h.of_suffix (by simp [List.suffix_cons_iff]))]
      rfl
  | case6 c r hamp hlt hgt hquot hapos ih =>
      have hfirst : c ≠ '&' := by
        rintro rfl
        obtain ⟨name, hname, rest, rfl⟩ := h.entity r List.suffix_rfl
        simp only [entities, List.mem_cons, List.not_mem_nil, or_false] at hname
        rcases hname with rfl | rfl | rfl | rfl | rfl
        · exact hamp rest rfl rfl
        · exact hlt rest rfl rfl
        · exact hgt rest rfl rfl
        · exact hquot rest rfl rfl
        · exact hapos rest rfl rfl
      have hplain : c ∉ markupChars := fun hc => h.unmarked c hc List.mem_cons_self
      rw [escapeChars_cons, escapeChar_of_plain hfirst hplain, ih h.tail, List.singleton_append]
  | case7 => rfl

end Inert

end

theorem inert_escapeChars (cs : List Char) : Inert (escapeChars cs) := by
  induction cs with
  | nil => exact Inert.nil
  | cons c cs ih => exact ih.escapeChar_append c

/-- The escaped text is the one inert text that the text is read from. -/
theorem eq_escape_iff {s t : String} : t = escape s ↔ Inert t.toList ∧ unescape t = s := by
  constructor
  · intro heq
    rw [heq, toList_escape]
    exact ⟨inert_escapeChars s.toList, unescape_escape s⟩
  · intro ⟨hinert, hread⟩
    rw [← String.toList_inj, toList_escape, ← hread, unescape, String.toList_ofList,
      hinert.escapeChars_unescapeChars]

/-- A text that holds entities is escaped and read back like any other. -/
example : escape "&amp;lt;" = "&amp;amp;lt;" ∧ unescape "&amp;amp;lt;" = "&amp;lt;" := by decide

/-- An `&` is inert in an entity only. -/
example : Inert "R&amp;D".toList ∧ ¬ Inert "R&D".toList := by decide

/-! ## Concatenation -/

theorem escape_append (s t : String) : escape (s ++ t) = escape s ++ escape t := by
  rw [← String.toList_inj, String.toList_append, toList_escape, toList_escape, toList_escape,
    String.toList_append, escapeChars_append]

/-! ## Stretches -/

/-- The characters of three texts that were put together, in front of others. -/
theorem toList_append_three (a b c : String) (rest : List Char) :
    (a ++ b ++ c).toList ++ rest = a.toList ++ (b.toList ++ (c.toList ++ rest)) := by
  simp only [String.toList_append, List.append_assoc]

/-- The stretch in front of the first character of a kind is taken whole. -/
theorem span_of_not_mem {boundary : Char} {as : List Char} (h : boundary ∉ as)
    (bs : List Char) :
    (as ++ boundary :: bs).takeWhile (· ≠ boundary) = as ∧
      (as ++ boundary :: bs).dropWhile (· ≠ boundary) = boundary :: bs := by
  have hall : ∀ c ∈ as, decide (c ≠ boundary) = true := by
    intro c hc
    exact decide_eq_true fun heq => h (heq ▸ hc)
  constructor
  · rw [List.takeWhile_append_of_pos hall]
    simp
  · rw [List.dropWhile_append_of_pos hall]
    simp

/-- What is written between a start and a stop is read as the text it was escaped from. -/
theorem readBetween_escapeChars (start : String) {stop : String} (cs rest : List Char)
    (hstop : ∃ c ∈ markupChars, stop.toList.head? = some c) :
    readBetween start stop
        (start.toList ++ (escapeChars cs ++ (stop.toList ++ rest))) = some (cs, rest) := by
  obtain ⟨c, hc, hhead⟩ := hstop
  obtain ⟨tail, htail⟩ := List.head?_eq_some_iff.1 hhead
  obtain ⟨htake, hdrop⟩ := span_of_not_mem (not_mem_escapeChars hc cs) (tail ++ rest)
  rw [readBetween, behind_append, htail, List.cons_append]
  simp only [Option.bind_eq_bind, Option.bind_some, List.head?_cons]
  rw [hdrop, htake, ← List.cons_append, behind_append, Option.bind_some,
    unescapeChars_escapeChars]

end WikiPress.Xml
