import Mathlib.Data.List.Basic
import WikiPress.Json.Printer
import WikiPress.Json.Reader

/-!
# WikiPress.Proofs.Json.RoundTrip

What the printer writes, the reader reads back.

Design points:

* The laws of reading have an arbitrary rest behind the text that is read, and give it
  back untouched, so that they compose.
* A number is kept as written and could be anything; the law is for the values without
  one (`Numberless`). A string that denotes no text is no exception: it is written as
  something that denotes none.
* Every written value and member is longer than the fuel that reading it takes, so the
  length of the text is fuel enough.
-/

namespace WikiPress.Json

open WikiPress.Text (Symbol symbolsOf hexDigit hexDigits hexDigit?)

variable {indent depth fuel : Nat}

/-! ## Bytes -/

theorem fromUTF8?_toUTF8 (text : String) : String.fromUTF8? text.toUTF8 = some text := by
  unfold String.fromUTF8?
  rw [String.toUTF8_eq_toByteArray, dif_pos text.isValidUTF8]
  rfl

/-- The bytes of a text are read as its characters. -/
theorem symbolsOf_toUTF8 (text : String) : symbolsOf text.toUTF8 = text.toList.map some := by
  rw [symbolsOf, fromUTF8?_toUTF8]

/-! ## Blanks -/

/-- Whether a character is neither a blank nor the end of an array or an object. -/
def Solid (c : Char) : Prop := c ∉ [' ', '\n', '\t', '\r', ']', '\x7d']

instance (c : Char) : Decidable (Solid c) := inferInstanceAs (Decidable (_ ∉ _))

theorem skipBlanks_solid {c : Char} (h : Solid c) (input : List Symbol) :
    skipBlanks (some c :: input) = some c :: input := by
  simp only [Solid, List.mem_cons, not_or] at h
  refine List.dropWhile_cons_of_neg ?_
  simp [h]

theorem skipBlanks_newLine (input : List Symbol) :
    skipBlanks ((newLine indent depth).map some ++ input) = skipBlanks input := by
  refine List.dropWhile_append_of_pos fun s hs => ?_
  obtain ⟨c, hc, rfl⟩ := List.mem_map.1 hs
  rcases List.mem_cons.1 hc with rfl | hc
  · rfl
  · rw [List.eq_of_mem_replicate hc]
    rfl

/-- Reading a value starts behind the blanks. -/
theorem readValue_newLine (input : List Symbol) :
    readValue fuel ((newLine indent depth).map some ++ input) = readValue fuel input := by
  cases fuel with
  | zero => rfl
  | succ fuel => simp only [readValue, skipBlanks_newLine]

theorem readValue_space (input : List Symbol) :
    readValue fuel (some ' ' :: input) = readValue fuel input := by
  cases fuel with
  | zero => rfl
  | succ fuel => rfl

/-- Reading members starts behind the blanks. -/
theorem readMembers_newLine (input : List Symbol) :
    readMembers fuel ((newLine indent depth).map some ++ input) = readMembers fuel input := by
  cases fuel with
  | zero => rfl
  | succ fuel => simp only [readMembers, skipBlanks_newLine]

/-- Reading items starts behind the blanks. -/
theorem readItems_newLine (input : List Symbol) :
    readItems fuel ((newLine indent depth).map some ++ input) = readItems fuel input := by
  cases fuel with
  | zero => rfl
  | succ fuel => simp only [readItems, readValue_newLine]

/-! ## Strings -/

theorem hexDigit?_hexDigit : ∀ n < 16, hexDigit? (hexDigit n) = some n := by decide

/-- Four digits write a code unit. -/
theorem hexUnit_hexDigits {n : Nat} (h : n < 65536) :
    ∃ a b c d, hexDigits 4 n = [a, b, c, d]
      ∧ hexUnit (some a) (some b) (some c) (some d) = some n := by
  refine ⟨hexDigit (n >>> 12 % 16), hexDigit (n >>> 8 % 16), hexDigit (n >>> 4 % 16),
    hexDigit (n >>> 0 % 16), rfl, ?_⟩
  have hdigit : ∀ i, hexDigit? (hexDigit (n >>> i % 16)) = some (n >>> i % 16) := fun i =>
    hexDigit?_hexDigit _ (Nat.mod_lt _ (by decide))
  simp only [hexUnit, Option.bind_some, hdigit, Option.bind_eq_bind, Option.some.injEq]
  simp only [Nat.shiftRight_eq_div_pow]
  omega

/-- A code unit that is no half of a pair is a character of its own. -/
theorem assemble_unit {code : Nat} (h : code < 32) (parts : List Part) :
    assemble (.unit code :: parts) = (assemble parts).map (Char.ofNat code :: ·) := by
  have hleading : isLeading code = false := by simp [isLeading]; omega
  have htrailing : isTrailing code = false := by simp [isTrailing]; omega
  cases parts with
  | nil => simp [assemble, hleading, htrailing]
  | cons part rest => cases part <;> simp [assemble, hleading, htrailing]

/-- A part in front of what else is read. -/
def withPart (part : Part) : Option (List Part × List Symbol) → Option (List Part × List Symbol) :=
  Option.map fun found => (part :: found.1, found.2)

theorem readParts_shortEscape {e c : Char} (h : shortEscape e = some c) (input : List Symbol) :
    readParts (some '\\' :: some e :: input) = withPart (.symbol (some c)) (readParts input) := by
  have hne : e ≠ 'u' := by
    rintro rfl
    simp [shortEscape] at h
  rw [readParts, h]
  · cases readParts input <;> rfl
  · simp [hne]

theorem readParts_unit {a b c d : Symbol} {code : Nat} (h : hexUnit a b c d = some code)
    (input : List Symbol) :
    readParts (some '\\' :: some 'u' :: a :: b :: c :: d :: input)
      = withPart (.unit code) (readParts input) := by
  rw [readParts, h]
  cases readParts input <;> rfl

theorem readParts_character {c : Char} (hquote : c ≠ '"') (hback : c ≠ '\\')
    (hcode : ¬ c.toNat < 32) (input : List Symbol) :
    readParts (some c :: input) = withPart (.symbol (some c)) (readParts input) := by
  rw [readParts]
  · rw [Option.any_some, if_neg (by simpa using hcode)]
    cases readParts input <;> rfl
  all_goals simp [hquote, hback]

/-- A written character is read as one part, which denotes the character. -/
theorem readParts_escapeChar (c : Char) :
    ∃ part, (∀ input, readParts ((escapeChar c).map some ++ input)
        = withPart part (readParts input))
      ∧ ∀ parts, assemble (part :: parts) = (assemble parts).map (c :: ·) := by
  unfold escapeChar
  split
  · next h => exact ⟨_, readParts_shortEscape (by rw [h]; rfl), fun parts => rfl⟩
  split
  · next h => exact ⟨_, readParts_shortEscape (by rw [h]; rfl), fun parts => rfl⟩
  split
  · next h => exact ⟨_, readParts_shortEscape (by rw [h]; rfl), fun parts => rfl⟩
  split
  · next h => exact ⟨_, readParts_shortEscape (by rw [h]; rfl), fun parts => rfl⟩
  split
  · next h => exact ⟨_, readParts_shortEscape (by rw [h]; rfl), fun parts => rfl⟩
  split
  · next h => exact ⟨_, readParts_shortEscape (by rw [h]; rfl), fun parts => rfl⟩
  split
  · next h => exact ⟨_, readParts_shortEscape (by rw [h]; rfl), fun parts => rfl⟩
  split
  -- the other control characters are written by their code
  · next h =>
      obtain ⟨a, b, x, y, hdigits, hunit⟩ := hexUnit_hexDigits (n := c.toNat) (by omega)
      refine ⟨.unit c.toNat, fun input => ?_, fun parts => ?_⟩
      · rw [hdigits]
        exact readParts_unit hunit input
      · rw [assemble_unit h, Char.ofNat_toNat]
  · next hquote hback _ _ _ _ _ hcode =>
      exact ⟨_, readParts_character hquote hback hcode, fun parts => rfl⟩

/-- The characters of a text, escaped and closed by a quote. -/
theorem readParts_escape (text : List Char) (rest : List Symbol) :
    ∃ parts, readParts ((text.flatMap escapeChar).map some ++ some '"' :: rest) = some (parts, rest)
      ∧ assemble parts = some text := by
  induction text with
  | nil => exact ⟨[], rfl, rfl⟩
  | cons c text ih =>
      obtain ⟨parts, hparts, htext⟩ := ih
      obtain ⟨part, hread, hdenotes⟩ := readParts_escapeChar c
      refine ⟨part :: parts, ?_, ?_⟩
      · rw [List.flatMap_cons, List.map_append, List.append_assoc, hread, hparts]
        rfl
      · rw [hdenotes, htext]
        rfl

theorem writeText_none : writeText none = ['"', '\\', 'u', 'd', '8', '0', '0', '"'] :=
  String.toList_ofList

theorem writeText_some (text : String) :
    writeText (some text) = '"' :: text.toList.flatMap escapeChar ++ ['"'] := rfl

/-- A written string starts with a quote, and is read from there. -/
theorem readText_writeText (content : Option String) (rest : List Symbol) :
    ∃ input, (writeText content).map some ++ rest = some '"' :: input
      ∧ readText input = some (content, rest) := by
  cases content with
  | none =>
      have hunit : hexUnit (some 'd') (some '8') (some '0') (some '0') = some 0xD800 := by decide
      refine ⟨some '\\' :: some 'u' :: some 'd' :: some '8' :: some '0' :: some '0'
        :: some '"' :: rest, by rw [writeText_none]; rfl, ?_⟩
      rw [readText, readParts_unit hunit]
      rfl
  | some text =>
      obtain ⟨parts, hparts, htext⟩ := readParts_escape text.toList rest
      refine ⟨(text.toList.flatMap escapeChar).map some ++ some '"' :: rest, ?_, ?_⟩
      · rw [writeText_some]
        simp
      · rw [readText, hparts]
        simp [htext]

/-! ## Values -/

mutual

/-- Whether a value has no number in it. -/
def Value.Numberless : Value → Prop
  | .number _ => False
  | .array items => ItemsNumberless items
  | .object members => MembersNumberless members
  | _ => True

/-- Whether no item has a number in it. -/
def ItemsNumberless : List Value → Prop
  | [] => True
  | item :: items => item.Numberless ∧ ItemsNumberless items

/-- Whether no member has a number in it. -/
def MembersNumberless : List (Option String × Value) → Prop
  | [] => True
  | (_, value) :: members => value.Numberless ∧ MembersNumberless members

end

/-- What is read behind an item: the items to come, and what follows the array. -/
def readMoreItems (fuel : Nat) (input : List Symbol) : Option (List Value × List Symbol) :=
  match skipBlanks input with
  | some ']' :: rest => some ([], rest)
  | some ',' :: rest => readItems fuel rest
  | _ => none

theorem readMoreItems_comma (input : List Symbol) :
    readMoreItems fuel (some ',' :: input) = readItems fuel input := rfl

theorem readItems_succ (input : List Symbol) :
    readItems (fuel + 1) input = (readValue fuel input).bind fun first =>
      (readMoreItems fuel first.2).map fun found => (first.1 :: found.1, found.2) := by
  rw [readItems]
  cases readValue fuel input with
  | none => rfl
  | some first =>
      simp only [readMoreItems, Option.bind_some, Option.bind_eq_bind]
      split
      · simp [*]
      · next rest _ => cases hread : readItems fuel rest <;> simp [*]
      · simp [*]

/-- What is read behind a member: the members to come, and what follows the object. -/
def readMoreMembers (fuel : Nat) (input : List Symbol) :
    Option (List (Option String × Value) × List Symbol) :=
  match skipBlanks input with
  | some '\x7d' :: rest => some ([], rest)
  | some ',' :: rest => readMembers fuel rest
  | _ => none

theorem readMoreMembers_comma (input : List Symbol) :
    readMoreMembers fuel (some ',' :: input) = readMembers fuel input := rfl

/-- A member is read as its name, a colon and its value. -/
theorem readMembers_succ {name : Option String} {input rest : List Symbol}
    (h : readText input = some (name, some ':' :: rest)) :
    readMembers (fuel + 1) (some '"' :: input) = (readValue fuel rest).bind fun first =>
      (readMoreMembers fuel first.2).map fun found => ((name, first.1) :: found.1, found.2) := by
  have hquote : Solid '"' := by decide
  have hcolon : Solid ':' := by decide
  rw [readMembers, skipBlanks_solid hquote]
  simp only [h, Option.bind_some, Option.bind_eq_bind, skipBlanks_solid hcolon]
  cases readValue fuel rest with
  | none => rfl
  | some first =>
      simp only [readMoreMembers, Option.bind_some]
      split
      · simp [*]
      · next rest _ => cases hread : readMembers fuel rest <;> simp [*]
      · simp [*]

/-- A written value starts with neither a blank nor the end of anything. -/
theorem writeValue_starts (indent depth : Nat) {value : Value} (h : value.Numberless) :
    ∃ c cs, writeValue indent depth value = c :: cs ∧ Solid c := by
  cases value with
  | null => exact ⟨'n', ['u', 'l', 'l'], rfl, by decide⟩
  | boolean value =>
      cases value with
      | true => exact ⟨'t', ['r', 'u', 'e'], rfl, by decide⟩
      | false => exact ⟨'f', ['a', 'l', 's', 'e'], rfl, by decide⟩
  | number digits => exact h.elim
  | text content =>
      cases content with
      | none => exact ⟨_, _, writeText_none, by decide⟩
      | some text => exact ⟨_, _, writeText_some text, by decide⟩
  | array items => cases items <;> exact ⟨'[', _, rfl, by decide⟩
  | object members =>
      cases members with
      | nil => exact ⟨'\x7b', _, rfl, by decide⟩
      | cons member members => exact ⟨'\x7b', _, rfl, by decide⟩

/-- An array with a first item is read as its items. -/
theorem readValue_array {c : Char} (h : Solid c) (input : List Symbol) :
    readValue (fuel + 1) (some '[' :: (newLine indent depth).map some ++ some c :: input)
      = (readItems fuel (some c :: input)).map fun found => (.array found.1, found.2) := by
  have hbracket : Solid '[' := by decide
  have hc : c ≠ ']' := by
    rintro rfl
    exact absurd h (by decide)
  rw [readValue, List.cons_append, skipBlanks_solid hbracket]
  simp only [skipBlanks_newLine, skipBlanks_solid h]
  cases hread : readItems fuel (some c :: input) <;> simp [hc, hread]

/-- An object with a first member is read as its members. -/
theorem readValue_object (input : List Symbol) :
    readValue (fuel + 1) (some '\x7b' :: (newLine indent depth).map some ++ some '"' :: input)
      = (readMembers fuel (some '"' :: input)).map fun found => (.object found.1, found.2) := by
  have hbrace : skipBlanks (some '\x7b' :: (newLine indent depth).map some ++ some '"' :: input)
      = some '\x7b' :: (newLine indent depth).map some ++ some '"' :: input := rfl
  have hquote : Solid '"' := by decide
  rw [readValue, hbrace]
  simp only [List.cons_append, skipBlanks_newLine, skipBlanks_solid hquote]
  cases hread : readMembers fuel (some '"' :: input) <;> simp [hread]

/-- What is written for a value has a length. -/
theorem writeValue_length_pos (indent depth : Nat) {value : Value} (h : value.Numberless) :
    0 < (writeValue indent depth value).length := by
  obtain ⟨c, cs, hstart, _⟩ := writeValue_starts indent depth h
  rw [hstart]
  exact Nat.succ_pos _

mutual

/-- A written value is read back, with what follows it left over. -/
theorem readValue_writeValue : ∀ (value : Value) (depth fuel : Nat) (rest : List Symbol),
    value.Numberless → (writeValue indent depth value).length ≤ fuel + 1 →
      readValue (fuel + 1) ((writeValue indent depth value).map some ++ rest) = some (value, rest)
  | .null, _, _, _, _, _ => by simp [writeValue, readValue, skipBlanks, readWord]
  | .boolean true, _, _, _, _, _ => by simp [writeValue, readValue, skipBlanks, readWord]
  | .boolean false, _, _, _, _, _ => by simp [writeValue, readValue, skipBlanks, readWord]
  | .number _, _, _, _, h, _ => h.elim
  | .text content, _, _, rest, _, _ => by
      obtain ⟨input, hinput, hread⟩ := readText_writeText content rest
      rw [writeValue, hinput]
      simp [readValue, skipBlanks, hread]
  | .array [], _, _, _, _, _ => by simp [writeValue, readValue, skipBlanks]
  | .array (item :: items), depth, fuel, rest, h, hfuel => by
      obtain ⟨hitem, hitems⟩ := h
      obtain ⟨c, cs, hstart, hc⟩ := writeValue_starts indent (depth + 1) hitem
      have hpos := writeValue_length_pos indent (depth + 1) hitem
      simp only [writeValue, newLine, List.length_append, List.length_cons] at hfuel
      -- the bracket and the line break leave fuel for the first item and for the others
      obtain ⟨fuel, rfl⟩ : ∃ n, fuel = n + 2 := ⟨fuel - 2, by omega⟩
      have hfirst := readValue_writeValue item (depth + 1) fuel
        ((writeItems indent depth items).map some ++ rest) hitem (by omega)
      have hmore := readMoreItems_writeItems items depth (fuel + 1) rest hitems (by omega)
      have hwrite : (writeValue indent depth (.array (item :: items))).map some ++ rest
          = some '[' :: (newLine indent (depth + 1)).map some ++ some c :: (cs.map some
            ++ ((writeItems indent depth items).map some ++ rest)) := by
        simp [writeValue, hstart]
      rw [hstart, List.map_cons, List.cons_append] at hfirst
      rw [hwrite, readValue_array hc, readItems_succ, hfirst, Option.bind_some, hmore]
      rfl
  | .object [], _, _, _, _, _ => by simp [writeValue, readValue, skipBlanks]
  | .object ((name, value) :: members), depth, fuel, rest, h, hfuel => by
      obtain ⟨hvalue, hmembers⟩ := h
      have hpos := writeValue_length_pos indent (depth + 1) hvalue
      simp only [writeValue, newLine, List.length_append, List.length_cons] at hfuel
      obtain ⟨fuel, rfl⟩ : ∃ n, fuel = n + 2 := ⟨fuel - 2, by omega⟩
      have hfirst := readValue_writeValue value (depth + 1) fuel
        ((writeMembers indent depth members).map some ++ rest) hvalue (by omega)
      have hmore := readMoreMembers_writeMembers members depth (fuel + 1) rest hmembers (by omega)
      obtain ⟨input, hinput, hread⟩ := readText_writeText name (some ':' :: some ' '
        :: ((writeValue indent (depth + 1) value).map some
          ++ ((writeMembers indent depth members).map some ++ rest)))
      have hwrite : (writeValue indent depth (.object ((name, value) :: members))).map some ++ rest
          = some '\x7b' :: (newLine indent (depth + 1)).map some ++ some '"' :: input := by
        simp [writeValue, ← hinput]
      rw [hwrite, readValue_object, readMembers_succ hread, readValue_space, hfirst,
        Option.bind_some, hmore]
      rfl

/-- Written items are read back. -/
theorem readMoreItems_writeItems : ∀ (items : List Value) (depth fuel : Nat) (rest : List Symbol),
    ItemsNumberless items → (writeItems indent depth items).length ≤ fuel →
      readMoreItems fuel ((writeItems indent depth items).map some ++ rest) = some (items, rest)
  | [], _, _, _, _, _ => by
      rw [writeItems, List.map_append, List.append_assoc, readMoreItems, skipBlanks_newLine]
      rfl
  | item :: items, depth, fuel, rest, h, hfuel => by
      obtain ⟨hitem, hitems⟩ := h
      have hpos := writeValue_length_pos indent (depth + 1) hitem
      simp only [writeItems, newLine, List.length_append, List.length_cons] at hfuel
      obtain ⟨fuel, rfl⟩ : ∃ n, fuel = n + 2 := ⟨fuel - 2, by omega⟩
      have hfirst := readValue_writeValue item (depth + 1) fuel
        ((writeItems indent depth items).map some ++ rest) hitem (by omega)
      have hmore := readMoreItems_writeItems items depth (fuel + 1) rest hitems (by omega)
      have hwrite : (writeItems indent depth (item :: items)).map some ++ rest
          = some ',' :: ((newLine indent (depth + 1)).map some
            ++ ((writeValue indent (depth + 1) item).map some
              ++ ((writeItems indent depth items).map some ++ rest))) := by
        simp [writeItems]
      rw [hwrite, readMoreItems_comma, readItems_newLine, readItems_succ, hfirst,
        Option.bind_some, hmore]
      rfl

/-- Written members are read back. -/
theorem readMoreMembers_writeMembers : ∀ (members : List (Option String × Value))
    (depth fuel : Nat) (rest : List Symbol),
    MembersNumberless members → (writeMembers indent depth members).length ≤ fuel →
      readMoreMembers fuel ((writeMembers indent depth members).map some ++ rest)
        = some (members, rest)
  | [], _, _, _, _, _ => by
      rw [writeMembers, List.map_append, List.append_assoc, readMoreMembers, skipBlanks_newLine]
      rfl
  | (name, value) :: members, depth, fuel, rest, h, hfuel => by
      obtain ⟨hvalue, hmembers⟩ := h
      have hpos := writeValue_length_pos indent (depth + 1) hvalue
      simp only [writeMembers, newLine, List.length_append, List.length_cons] at hfuel
      obtain ⟨fuel, rfl⟩ : ∃ n, fuel = n + 2 := ⟨fuel - 2, by omega⟩
      have hfirst := readValue_writeValue value (depth + 1) fuel
        ((writeMembers indent depth members).map some ++ rest) hvalue (by omega)
      have hmore := readMoreMembers_writeMembers members depth (fuel + 1) rest hmembers (by omega)
      obtain ⟨input, hinput, hread⟩ := readText_writeText name (some ':' :: some ' '
        :: ((writeValue indent (depth + 1) value).map some
          ++ ((writeMembers indent depth members).map some ++ rest)))
      have hwrite : (writeMembers indent depth ((name, value) :: members)).map some ++ rest
          = some ',' :: ((newLine indent (depth + 1)).map some ++ some '"' :: input) := by
        simp [writeMembers, ← hinput]
      rw [hwrite, readMoreMembers_comma, readMembers_newLine, readMembers_succ hread,
        readValue_space, hfirst, Option.bind_some, hmore]
      rfl

end

/-- The document of a value without numbers is read as the value. -/
theorem parse_print {value : Value} (h : value.Numberless) :
    parse (print indent value).toUTF8 = some value := by
  have hread : readValue ((writeValue indent 0 value).length + 1)
      ((writeValue indent 0 value).map some ++ []) = some (value, []) :=
    readValue_writeValue value 0 _ [] h (by omega)
  rw [List.append_nil] at hread
  rw [parse, print, symbolsOf_toUTF8, String.toList_ofList, List.length_map, hread]
  rfl

end WikiPress.Json
