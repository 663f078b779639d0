import WikiPress.Json.Value
import WikiPress.Text.Digits
import WikiPress.Text.Symbol

/-!
# WikiPress.Json.Reader

Reads a JSON document.

The grammar is the strict one: no comments, no trailing commas, no control characters in
strings, nothing behind the value but blanks.

Design points:

* Reading works on symbols, so stray bytes are allowed where a string is only skipped.
* Values nest, so reading them takes fuel: one unit for every value and every member.
  A document has fewer of them than symbols, so `parse` never runs out.
-/

namespace WikiPress.Json

open WikiPress.Text (Symbol symbolsOf hexDigit?)

/-- What is left of the input behind its blanks. -/
def skipBlanks (input : List Symbol) : List Symbol :=
  input.dropWhile fun s =>
    s == some ' ' || s == some '\n' || s == some '\t' || s == some '\r'

/-! ## Strings -/

/-- A part of a string: a symbol, or a code unit written in hexadecimal. -/
inductive Part
  | symbol (s : Symbol)
  | unit (code : Nat)
  deriving DecidableEq, Repr

/-- The character a short escape stands for. -/
def shortEscape : Char → Option Char
  | '"' => some '"'
  | '\\' => some '\\'
  | '/' => some '/'
  | 'b' => some '\x08'
  | 'f' => some '\x0c'
  | 'n' => some '\n'
  | 'r' => some '\r'
  | 't' => some '\t'
  | _ => none

/-- The number four hexadecimal digits write. -/
def hexUnit (a b c d : Symbol) : Option Nat := do
  let a ← a.bind hexDigit?
  let b ← b.bind hexDigit?
  let c ← c.bind hexDigit?
  let d ← d.bind hexDigit?
  some (((a * 16 + b) * 16 + c) * 16 + d)

/-- The parts of a string up to its closing quote, and what follows the quote. -/
def readParts : List Symbol → Option (List Part × List Symbol)
  | [] => none
  | some '"' :: rest => some ([], rest)
  | some '\\' :: some 'u' :: a :: b :: c :: d :: rest => do
      let code ← hexUnit a b c d
      let (parts, rest) ← readParts rest
      some (.unit code :: parts, rest)
  | some '\\' :: some e :: rest => do
      let c ← shortEscape e
      let (parts, rest) ← readParts rest
      some (.symbol (some c) :: parts, rest)
  | some '\\' :: _ => none
  | s :: rest =>
      if s.any (·.toNat < 32) then none
      else do
        let (parts, rest) ← readParts rest
        some (.symbol s :: parts, rest)

/-- Whether a code unit is the first half of a surrogate pair. -/
def isLeading (code : Nat) : Bool := 0xD800 ≤ code && code ≤ 0xDBFF

/-- Whether a code unit is the second half of a surrogate pair. -/
def isTrailing (code : Nat) : Bool := 0xDC00 ≤ code && code ≤ 0xDFFF

/-- The characters that parts denote, if they denote any. -/
def assemble : List Part → Option (List Char)
  | [] => some []
  | .symbol none :: _ => none
  | .symbol (some c) :: rest => (assemble rest).map (c :: ·)
  | .unit code :: .unit next :: rest =>
      if isLeading code then
        if isTrailing next then
          (assemble rest).map
            (Char.ofNat (0x10000 + (code - 0xD800) * 0x400 + (next - 0xDC00)) :: ·)
        else none
      else if isTrailing code then none
      else (assemble (.unit next :: rest)).map (Char.ofNat code :: ·)
  | .unit code :: rest =>
      if isLeading code || isTrailing code then none
      else (assemble rest).map (Char.ofNat code :: ·)

/-- The text of a string up to its closing quote, and what follows the quote. -/
def readText (input : List Symbol) : Option (Option String × List Symbol) := do
  let (parts, rest) ← readParts input
  some ((assemble parts).map String.ofList, rest)

/-! ## Numbers -/

/-- The decimal digits the input starts with, and the rest. -/
def readDigits : List Symbol → List Char × List Symbol
  | some c :: rest =>
      if c.isDigit then
        let (digits, rest) := readDigits rest
        (c :: digits, rest)
      else ([], some c :: rest)
  | input => ([], input)

/-- One or more decimal digits. -/
def readSomeDigits (input : List Symbol) : Option (List Char × List Symbol) :=
  match readDigits input with
  | ([], _) => none
  | found => some found

/-- The part of a number in front of its point. A zero stands alone. -/
def readWhole (input : List Symbol) : Option (List Char × List Symbol) := do
  let (digits, rest) ← readSomeDigits input
  if digits.head? = some '0' ∧ digits.length ≠ 1 then none else some (digits, rest)

/-- A number's point and the digits behind it, if it has one. -/
def readFraction : List Symbol → Option (List Char × List Symbol)
  | some '.' :: rest => do
      let (digits, rest) ← readSomeDigits rest
      some ('.' :: digits, rest)
  | input => some ([], input)

/-- A number's exponent, if it has one. -/
def readExponent : List Symbol → Option (List Char × List Symbol)
  | some e :: some s :: rest =>
      if e = 'e' ∨ e = 'E' then
        if s = '+' ∨ s = '-' then do
          let (digits, rest) ← readSomeDigits rest
          some (e :: s :: digits, rest)
        else do
          let (digits, rest) ← readSomeDigits (some s :: rest)
          some (e :: digits, rest)
      else some ([], some e :: some s :: rest)
  | some e :: rest => if e = 'e' ∨ e = 'E' then none else some ([], some e :: rest)
  | input => some ([], input)

/-- A number without its sign. -/
def readUnsigned (input : List Symbol) : Option (List Char × List Symbol) := do
  let (whole, rest) ← readWhole input
  let (fraction, rest) ← readFraction rest
  let (exponent, rest) ← readExponent rest
  some (whole ++ fraction ++ exponent, rest)

/-- A number. -/
def readNumber : List Symbol → Option (Value × List Symbol)
  | some '-' :: rest => do
      let (digits, rest) ← readUnsigned rest
      some (.number (String.ofList ('-' :: digits)), rest)
  | input => do
      let (digits, rest) ← readUnsigned input
      some (.number (String.ofList digits), rest)

/-! ## Values -/

/-- What follows a word at the start of the input. -/
def readWord (word : String) (input : List Symbol) : Option (List Symbol) :=
  let symbols := word.toList.map some
  if symbols.isPrefixOf input then some (input.drop symbols.length) else none

mutual

/-- A value behind blanks. -/
def readValue : Nat → List Symbol → Option (Value × List Symbol)
  | 0, _ => none
  | fuel + 1, input =>
      match skipBlanks input with
      | some '"' :: rest => do
          let (text, rest) ← readText rest
          some (.text text, rest)
      | some '[' :: rest =>
          match skipBlanks rest with
          | some ']' :: rest => some (.array [], rest)
          | rest => do
              let (items, rest) ← readItems fuel rest
              some (.array items, rest)
      | some '\x7b' :: rest =>
          match skipBlanks rest with
          | some '\x7d' :: rest => some (.object [], rest)
          | rest => do
              let (members, rest) ← readMembers fuel rest
              some (.object members, rest)
      | some 'n' :: rest => (readWord "ull" rest).map fun rest => (.null, rest)
      | some 't' :: rest => (readWord "rue" rest).map fun rest => (.boolean true, rest)
      | some 'f' :: rest => (readWord "alse" rest).map fun rest => (.boolean false, rest)
      | input => readNumber input

/-- The items of an array up to its closing bracket; there is at least one. -/
def readItems : Nat → List Symbol → Option (List Value × List Symbol)
  | 0, _ => none
  | fuel + 1, input => do
      let (item, rest) ← readValue fuel input
      match skipBlanks rest with
      | some ']' :: rest => some ([item], rest)
      | some ',' :: rest => do
          let (items, rest) ← readItems fuel rest
          some (item :: items, rest)
      | _ => none

/-- The members of an object up to its closing brace; there is at least one. -/
def readMembers : Nat → List Symbol → Option (List (Option String × Value) × List Symbol)
  | 0, _ => none
  | fuel + 1, input =>
      match skipBlanks input with
      | some '"' :: rest => do
          let (name, rest) ← readText rest
          match skipBlanks rest with
          | some ':' :: rest => do
              let (value, rest) ← readValue fuel rest
              match skipBlanks rest with
              | some '\x7d' :: rest => some ([(name, value)], rest)
              | some ',' :: rest => do
                  let (members, rest) ← readMembers fuel rest
                  some ((name, value) :: members, rest)
              | _ => none
          | _ => none
      | _ => none

end

/-- The value of a document. -/
def parse (document : ByteArray) : Option Value := do
  let symbols := symbolsOf document
  let (value, rest) ← readValue (symbols.length + 1) symbols
  if skipBlanks rest = [] then some value else none

end WikiPress.Json
