import WikiPress.Proofs.Xml.Section

/-!
# WikiPress.Proofs.Xml.Reader

A reader that takes written markup character by character, to say that it is well-formed.

Design points:

* `Place` is where in a document the reader is, and the names of the open elements stand
  on a stack beside it. A step fails where XML does: at an end tag that does not match, at
  a raw `<` in a value, at an `&` that begins none of the five entities, at an attribute
  that is given twice.
* The reader takes less than XML allows. A `>` in text counts as an error, so a section
  that ends early shows: the terminator it was to end at is then read as text.
* What a literal text does to the reader is settled by evaluation on an empty stack, and
  holds on every other one (`Reads.around`).
-/

namespace WikiPress.Xml

open WikiPress.Storage (cdataChars)

/-- Where in a document the reader is. Element and attribute names are read character by
character; an element's name is kept until its tag ends. -/
inductive Place
  | text
  | textEntity (name : List Char)
  /-- Behind a `<`. -/
  | markup
  /-- Behind `<!` and a part of what must follow. -/
  | declaration (word : List Char)
  /-- In a section, behind one or two brackets or none. -/
  | section (brackets : Nat)
  | endName (name : List Char)
  | startName (name : List Char)
  /-- Before an attribute or the end of a tag. -/
  | attributes (element : List Char) (given : List (List Char))
  | attributeName (element : List Char) (given : List (List Char)) (name : List Char)
  /-- Behind the `=` of an attribute. -/
  | equals (element : List Char) (given : List (List Char))
  | value (element : List Char) (given : List (List Char))
  | valueEntity (element : List Char) (given : List (List Char)) (name : List Char)
  /-- Behind the closing quote of a value. -/
  | valueEnd (element : List Char) (given : List (List Char))
  /-- Behind the slash of an empty element. -/
  | slash
  deriving DecidableEq, Repr

/-- The reader at a point of a document. -/
structure Reader where
  place : Place
  /-- The names of the open elements, innermost first. -/
  elements : List (List Char)
  deriving DecidableEq, Repr

/-- Whether a name may start with a character. -/
def isNameStart (c : Char) : Bool := c.isAlpha || c = '_'

/-- Whether a name may go on with a character. -/
def isNameChar (c : Char) : Bool := c.isAlphanum || c = ':' || c = '-' || c = '_' || c = '.'

/-- The names of the five entities. -/
def entities : List (List Char) :=
  [['a', 'm', 'p'], ['l', 't'], ['g', 't'], ['q', 'u', 'o', 't'], ['#', '3', '9']]

/-- What must follow `<!`. -/
def sectionWord : List Char := ['[', 'C', 'D', 'A', 'T', 'A', '[']

namespace Reader

/-- The reader in front of a document, and behind one that is complete. -/
def start : Reader := ⟨.text, []⟩

/-- One character: none where the text is no markup. -/
def step (r : Reader) (c : Char) : Option Reader :=
  match r.place with
  | .text =>
      if c = '<' then some { r with place := .markup }
      else if c = '&' then some { r with place := .textEntity [] }
      else if c = '>' then none
      else some r
  | .textEntity name =>
      if c = ';' then (if name ∈ entities then some { r with place := .text } else none)
      else some { r with place := .textEntity (name ++ [c]) }
  | .markup =>
      if c = '/' then some { r with place := .endName [] }
      else if c = '!' then some { r with place := .declaration [] }
      else if isNameStart c then some { r with place := .startName [c] }
      else none
  | .declaration word =>
      if word ++ [c] = sectionWord then some { r with place := .section 0 }
      else if (word ++ [c]).isPrefixOf sectionWord then
        some { r with place := .declaration (word ++ [c]) }
      else none
  | .section n =>
      if c = ']' then some { r with place := .section (min 2 (n + 1)) }
      else if c = '>' ∧ n = 2 then some { r with place := .text }
      else some { r with place := .section 0 }
  | .endName name =>
      if c = '>' then
        match r.elements with
        | top :: outer => if top = name then some ⟨.text, outer⟩ else none
        | [] => none
      else if isNameChar c then some { r with place := .endName (name ++ [c]) }
      else none
  | .startName name =>
      if c = '>' then some ⟨.text, name :: r.elements⟩
      else if c = '/' then some { r with place := .slash }
      else if c = ' ' then some { r with place := .attributes name [] }
      else if isNameChar c then some { r with place := .startName (name ++ [c]) }
      else none
  | .attributes element given =>
      if c = '/' then some { r with place := .slash }
      else if isNameStart c then some { r with place := .attributeName element given [c] }
      else none
  | .attributeName element given name =>
      if c = '=' then
        (if name ∈ given then none else some { r with place := .equals element (name :: given) })
      else if isNameChar c then
        some { r with place := .attributeName element given (name ++ [c]) }
      else none
  | .equals element given =>
      if c = '"' then some { r with place := .value element given } else none
  | .value element given =>
      if c = '"' then some { r with place := .valueEnd element given }
      else if c = '<' then none
      else if c = '&' then some { r with place := .valueEntity element given [] }
      else some r
  | .valueEntity element given name =>
      if c = ';' then
        (if name ∈ entities then some { r with place := .value element given } else none)
      else some { r with place := .valueEntity element given (name ++ [c]) }
  | .valueEnd element given =>
      if c = '>' then some ⟨.text, element :: r.elements⟩
      else if c = '/' then some { r with place := .slash }
      else if c = ' ' then some { r with place := .attributes element given }
      else none
  | .slash => if c = '>' then some { r with place := .text } else none

/-- The reader behind some characters. -/
def read (r : Reader) (cs : List Char) : Option Reader := cs.foldlM step r

/-- The same place with more elements open around it. -/
def under (r : Reader) (outer : List (List Char)) : Reader :=
  { r with elements := r.elements ++ outer }

@[simp] theorem read_nil (r : Reader) : r.read [] = some r := rfl

theorem read_cons (r : Reader) (c : Char) (cs : List Char) :
    r.read (c :: cs) = (r.step c).bind (·.read cs) := rfl

theorem read_append (r : Reader) (as bs : List Char) :
    r.read (as ++ bs) = (r.read as).bind (·.read bs) := by
  simp only [read, List.foldlM_append]
  rfl

/-- A step does not look at the elements around those that were open before it. -/
theorem step_under {r r' : Reader} {c : Char} (outer : List (List Char))
    (h : r.step c = some r') : (r.under outer).step c = some (r'.under outer) := by
  obtain ⟨place, elements⟩ := r
  cases place with
  | endName name =>
      simp only [step, under] at h ⊢
      split at h
      · cases elements with
        | nil => cases h
        | cons top inner =>
            simp only [List.cons_append] at h ⊢
            split at h
            · rw [if_pos ‹_›, if_pos ‹_›, ← Option.some.inj h]
            · cases h
      · split at h
        · rw [if_neg ‹_›, if_pos ‹_›, ← Option.some.inj h]
        · cases h
  | _ =>
      simp only [step, under] at h ⊢
      grind

theorem read_under {r r' : Reader} {cs : List Char} (outer : List (List Char))
    (h : r.read cs = some r') : (r.under outer).read cs = some (r'.under outer) := by
  induction cs generalizing r with
  | nil => rw [← Option.some.inj h, read_nil]
  | cons c cs ih =>
      rw [read_cons] at h ⊢
      obtain ⟨mid, hstep, hrest⟩ := Option.bind_eq_some_iff.1 h
      rw [step_under outer hstep]
      exact ih hrest

end Reader

/-- A text takes the reader from one point to another. -/
def Reads (r : Reader) (s : String) (r' : Reader) : Prop := r.read s.toList = some r'

instance (r : Reader) (s : String) (r' : Reader) : Decidable (Reads r s r') :=
  inferInstanceAs (Decidable (_ = _))

/-- A text is well-formed: it leaves nothing open. -/
def WellFormed (s : String) : Prop := Reads .start s .start

instance (s : String) : Decidable (WellFormed s) := inferInstanceAs (Decidable (Reads ..))

/-! ## Composing texts -/

theorem Reads.empty (r : Reader) : Reads r "" r := rfl

theorem Reads.append {r m r' : Reader} {a b : String} (ha : Reads r a m) (hb : Reads m b r') :
    Reads r (a ++ b) r' := by
  unfold Reads at ha hb ⊢
  rw [String.toList_append, Reader.read_append, ha]
  exact hb

/-- What a text does holds whatever elements are open around it. -/
theorem Reads.around {place place' : Place} {t t' : List (List Char)} {s : String}
    (h : Reads ⟨place, t⟩ s ⟨place', t'⟩) (outer : List (List Char)) :
    Reads ⟨place, t ++ outer⟩ s ⟨place', t' ++ outer⟩ :=
  Reader.read_under outer h

theorem Reads.under {place place' : Place} {t : List (List Char)} {s : String}
    (h : Reads ⟨place, []⟩ s ⟨place', t⟩) (outer : List (List Char)) :
    Reads ⟨place, outer⟩ s ⟨place', t ++ outer⟩ :=
  h.around outer

theorem Reads.closing {place place' : Place} {t : List (List Char)} {s : String}
    (h : Reads ⟨place, t⟩ s ⟨place', []⟩) (outer : List (List Char)) :
    Reads ⟨place, t ++ outer⟩ s ⟨place', outer⟩ :=
  h.around outer

/-- Characters that each leave the reader where it is do so together. -/
theorem Reader.read_of_forall {r : Reader} {cs : List Char}
    (h : ∀ c ∈ cs, r.step c = some r) : r.read cs = some r := by
  induction cs with
  | nil => rfl
  | cons c cs ih =>
      rw [Reader.read_cons, h c List.mem_cons_self]
      exact ih fun c hc => h c (List.mem_cons_of_mem _ hc)

theorem Reader.read_flatMap_of_forall {r : Reader} {f : Char → List Char} {cs : List Char}
    (h : ∀ c ∈ cs, r.read (f c) = some r) : r.read (cs.flatMap f) = some r := by
  induction cs with
  | nil => rfl
  | cons c cs ih =>
      rw [List.flatMap_cons, Reader.read_append, h c List.mem_cons_self]
      exact ih fun c hc => h c (List.mem_cons_of_mem _ hc)

/-! ## Escaped text -/

/-- One escaped character: an entity, or a character that is no markup. -/
theorem escapeChar_cases (c : Char) :
    escapeChar c ∈ entities.map (fun name => '&' :: name ++ [';']) ∨
      (escapeChar c = [c] ∧ c ≠ '&' ∧ c ≠ '<' ∧ c ≠ '>' ∧ c ≠ '"' ∧ c ≠ '\'') := by
  unfold escapeChar
  split
  · left; decide
  · left; decide
  · left; decide
  · left; decide
  · left; decide
  · next hamp hlt hgt hquot hapos => exact Or.inr ⟨rfl, hamp, hlt, hgt, hquot, hapos⟩

/-- The name of an entity that was begun in a value. -/
theorem Reader.read_valueEntity {element : List Char} {given elements : List (List Char)}
    {begun name : List Char} (hname : ';' ∉ name) (h : begun ++ name ∈ entities) :
    (⟨.valueEntity element given begun, elements⟩ : Reader).read (name ++ [';']) =
      some ⟨.value element given, elements⟩ := by
  induction name generalizing begun with
  | nil =>
      rw [List.append_nil] at h
      simp [Reader.read_cons, Reader.step, h]
  | cons c name ih =>
      obtain ⟨hc, hname⟩ := not_or.1 (List.mem_cons.not.1 hname)
      have hstep : (⟨.valueEntity element given begun, elements⟩ : Reader).step c =
          some ⟨.valueEntity element given (begun ++ [c]), elements⟩ := by
        simp [Reader.step, Ne.symm hc]
      rw [List.cons_append, Reader.read_cons, hstep]
      exact ih hname (by simpa using h)

theorem Reads.escape_text (elements : List (List Char)) (s : String) :
    Reads ⟨.text, elements⟩ (escape s) ⟨.text, elements⟩ := by
  unfold Reads
  rw [toList_escape]
  refine Reader.read_flatMap_of_forall fun c _ => ?_
  rcases escapeChar_cases c with h | ⟨h, hamp, hlt, hgt, -⟩
  · have hentity : ∀ e ∈ entities.map (fun name => '&' :: name ++ [';']),
        (⟨.text, []⟩ : Reader).read e = some ⟨.text, []⟩ := by decide
    exact Reader.read_under elements (hentity _ h)
  · rw [h, Reader.read_cons]
    simp [Reader.step, hamp, hlt, hgt]

theorem Reads.escape_value (element : List Char) (given elements : List (List Char))
    (s : String) :
    Reads ⟨.value element given, elements⟩ (escape s) ⟨.value element given, elements⟩ := by
  unfold Reads
  rw [toList_escape]
  refine Reader.read_flatMap_of_forall fun c _ => ?_
  rcases escapeChar_cases c with h | ⟨h, hamp, hlt, -, hquot, -⟩
  · obtain ⟨name, hname, hc⟩ := List.mem_map.1 h
    have hplain : ∀ name ∈ entities, ';' ∉ name := by decide
    have hstep : (⟨.value element given, elements⟩ : Reader).step '&' =
        some ⟨.valueEntity element given [], elements⟩ := rfl
    rw [← hc, List.cons_append, Reader.read_cons, hstep]
    exact Reader.read_valueEntity (hplain name hname) hname
  · rw [h, Reader.read_cons]
    simp [Reader.step, hamp, hlt, hquot]

/-- A number needs no escaping in a value. -/
theorem Reads.nat_value (element : List Char) (given elements : List (List Char)) (n : Nat) :
    Reads ⟨.value element given, elements⟩ (toString n) ⟨.value element given, elements⟩ := by
  unfold Reads
  refine Reader.read_of_forall fun c hc => ?_
  have hdigit : c.isDigit = true := by
    rw [Nat.toString_eq_repr, Nat.toList_repr] at hc
    exact Nat.isDigit_of_mem_toDigits (by decide) (by decide) hc
  have h : c ≠ '"' ∧ c ≠ '<' ∧ c ≠ '&' := by
    refine ⟨?_, ?_, ?_⟩ <;> (rintro rfl; simp at hdigit)
  simp [Reader.step, h]

/-! ## Sections -/

/-- The brackets a section ends in, as far as they can begin a terminator. -/
def bracketsFrom (n : Nat) (cs : List Char) : Nat :=
  cs.foldl (fun n c => if c = ']' then min 2 (n + 1) else 0) n

/-- A text does not complete a terminator that some brackets begin. -/
def Continues (n : Nat) (cs : List Char) : Prop :=
  (n = 2 → ¬ ['>'] <+: cs) ∧ (1 ≤ n → ¬ [']', '>'] <+: cs)

theorem continues_zero (cs : List Char) : Continues 0 cs := by
  simp [Continues]

/-- One character of a section that completes no terminator and begins none. -/
theorem Reader.step_section {n : Nat} {c : Char} {cs : List Char} {elements : List (List Char)}
    (h : Continues n (c :: cs)) (hnot : ¬ terminator <+: c :: cs) :
    (⟨.section n, elements⟩ : Reader).step c =
        some ⟨.section (if c = ']' then min 2 (n + 1) else 0), elements⟩ ∧
      Continues (if c = ']' then min 2 (n + 1) else 0) cs := by
  obtain ⟨hend, hbegun⟩ := h
  by_cases hc : c = ']'
  · subst hc
    rw [if_pos rfl]
    refine ⟨rfl, fun h2 => ?_, fun _ => ?_⟩
    · rintro ⟨t, rfl⟩
      exact hbegun (by omega) ⟨t, rfl⟩
    · rintro ⟨t, rfl⟩
      exact hnot ⟨t, rfl⟩
  · have hgt : ¬ (c = '>' ∧ n = 2) := by
      rintro ⟨rfl, h2⟩
      exact hend h2 ⟨cs, rfl⟩
    rw [if_neg hc]
    refine ⟨?_, continues_zero cs⟩
    simp only [Reader.step, if_neg hc, if_neg hgt]

/-- Two brackets are counted, whatever was in front of them. -/
theorem Reader.read_brackets (n : Nat) (elements : List (List Char)) :
    (⟨.section n, elements⟩ : Reader).read [']', ']'] = some ⟨.section 2, elements⟩ := by
  have hcounted : (⟨.section n, elements⟩ : Reader).read [']', ']'] =
      some ⟨.section (min 2 (min 2 (n + 1) + 1)), elements⟩ := rfl
  have htwo : min 2 (min 2 (n + 1) + 1) = 2 := by omega
  rw [hcounted, htwo]

/-- Text that is escaped for a section stays in one. -/
theorem Reader.read_cdataChars {n : Nat} {cs : List Char} (elements : List (List Char))
    (h : Continues n cs) :
    (⟨.section n, elements⟩ : Reader).read (cdataChars cs) =
      some ⟨.section (bracketsFrom n (cdataChars cs)), elements⟩ := by
  fun_induction cdataChars cs generalizing n with
  | case1 r ih =>
      -- the brackets end the first section, and the `>` is in the second one
      have hcut : (⟨.section 2, elements⟩ : Reader).read (terminator ++ sectionStart ++ ['>']) =
          some ⟨.section 0, elements⟩ :=
        Reader.read_under elements
          (show (⟨.section 2, []⟩ : Reader).read _ = some ⟨.section 0, []⟩ by decide)
      have hwritten : cdataChars (terminator ++ r) =
          [']', ']'] ++ (terminator ++ sectionStart ++ ['>'] ++ cdataChars r) := by
        rw [cdataChars_terminator]
        simp
      have hcount : bracketsFrom n (cdataChars (terminator ++ r)) =
          bracketsFrom 0 (cdataChars r) := by
        rw [hwritten]
        simp [bracketsFrom, terminator, sectionStart]
      show (⟨.section n, elements⟩ : Reader).read (cdataChars (terminator ++ r)) =
        some ⟨.section (bracketsFrom n (cdataChars (terminator ++ r))), elements⟩
      rw [hcount, hwritten, Reader.read_append, Reader.read_brackets, Option.bind_some,
        Reader.read_append, hcut]
      exact ih (continues_zero r)
  | case2 c r hnot ih =>
      -- the second alternative of `cdataChars` is taken where no terminator is
      have hfront : ¬ terminator <+: c :: r := by
        rintro ⟨t, ht⟩
        simp only [terminator, List.cons_append, List.nil_append, List.cons.injEq] at ht
        exact hnot t ht.1.symm ht.2.symm
      obtain ⟨hstep, hcontinues⟩ := @Reader.step_section n c r elements h hfront
      rw [Reader.read_cons, hstep]
      exact ih hcontinues
  | case3 => rfl

/-- Whatever a text holds, the section it is escaped for ends behind it and not before. -/
theorem Reads.cdata (elements : List (List Char)) (s : String) :
    ∃ n, Reads ⟨.section 0, elements⟩ (Storage.cdata s) ⟨.section n, elements⟩ := by
  refine ⟨bracketsFrom 0 (cdataChars s.toList), ?_⟩
  unfold Reads Storage.cdata
  rw [String.toList_ofList]
  exact Reader.read_cdataChars elements (continues_zero _)

/-- A section ends at the terminator that is written behind it. -/
theorem Reads.section_end (n : Nat) (elements : List (List Char)) :
    Reads ⟨.section n, elements⟩ "]]>" ⟨.text, elements⟩ := by
  show (⟨.section n, elements⟩ : Reader).read ([']', ']'] ++ ['>']) = some ⟨.text, elements⟩
  rw [Reader.read_append, Reader.read_brackets]
  rfl

/-! ## Text that goes on in a section -/

theorem bracketsFrom_append (n : Nat) (a b : List Char) :
    bracketsFrom n (a ++ b) = bracketsFrom (bracketsFrom n a) b := by
  simp [bracketsFrom]

/-- The brackets counted are there. -/
theorem suffix_of_bracketsFrom (cs : List Char) :
    (1 ≤ bracketsFrom 0 cs → [']'] <:+ cs) ∧ (bracketsFrom 0 cs = 2 → [']', ']'] <:+ cs) := by
  induction cs using List.reverseRecOn with
  | nil => simp [bracketsFrom]
  | append_singleton cs c ih =>
      rw [bracketsFrom_append]
      by_cases hc : c = ']'
      · subst hc
        have hcount : bracketsFrom (bracketsFrom 0 cs) [']'] = min 2 (bracketsFrom 0 cs + 1) := rfl
        rw [hcount]
        refine ⟨fun _ => List.suffix_append cs [']'], fun h2 => ?_⟩
        obtain ⟨t, rfl⟩ := ih.1 (by omega)
        exact ⟨t, by simp⟩
      · have hcount : bracketsFrom (bracketsFrom 0 cs) [c] = 0 := if_neg hc
        rw [hcount]
        exact ⟨fun h => absurd h (by omega), fun h => absurd h (by omega)⟩

/-- A text without terminators is written as it is. -/
theorem cdataChars_of_not_isInfix {cs : List Char} (h : ¬ terminator <:+: cs) :
    cdataChars cs = cs := by
  induction cs with
  | nil => rfl
  | cons c cs ih =>
      have hfront : ¬ terminator <+: c :: cs := fun hp => h hp.isInfix
      have htail : ¬ terminator <:+: cs := fun hi => h (hi.trans (List.suffix_cons c cs).isInfix)
      rw [cdataChars_cons_of_not hfront, ih htail]

/-- A text goes on with another in a section, if the two hold no terminator together. -/
theorem Reader.read_cdataChars_of_not_isInfix (elements : List (List Char))
    {before cs : List Char} (h : ¬ terminator <:+: before ++ cs) :
    (⟨.section (bracketsFrom 0 before), elements⟩ : Reader).read (cdataChars cs) =
      some ⟨.section (bracketsFrom 0 (before ++ cs)), elements⟩ := by
  have hcs : ¬ terminator <:+: cs := fun hi =>
    h (hi.trans (List.suffix_append before cs).isInfix)
  have hcontinues : Continues (bracketsFrom 0 before) cs := by
    refine ⟨fun h2 => ?_, fun h1 => ?_⟩
    · rintro ⟨t, ht⟩
      obtain ⟨u, hu⟩ := (suffix_of_bracketsFrom before).2 h2
      exact h ⟨u, t, by rw [← ht, ← hu]; simp [terminator]⟩
    · rintro ⟨t, ht⟩
      obtain ⟨u, hu⟩ := (suffix_of_bracketsFrom before).1 h1
      exact h ⟨u, t, by rw [← ht, ← hu]; simp [terminator]⟩
  have hread := Reader.read_cdataChars elements hcontinues
  rw [cdataChars_of_not_isInfix hcs] at hread ⊢
  rw [hread, bracketsFrom_append]

end WikiPress.Xml
