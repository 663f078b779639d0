import WikiPress.Text.Blank
import WikiPress.Toml.Quoted
import WikiPress.Toml.Scalar
import WikiPress.Toml.Table

/-!
# WikiPress.Toml.Reader

Reads a TOML document (version 1.1).

Design points:

* A document is a row of statements: headers, and keys with their values. Each takes the
  rest of its line.
* Values nest, and keys and statements follow one another, so reading them takes fuel:
  one unit for each. A document has fewer of them than characters, so `parse` never
  runs out.
-/

namespace WikiPress.Toml

open WikiPress.Text (isSpaceOrTab)

/-! ## Blanks -/

/-- What follows spaces and tabs. -/
def skipBlanks (input : List Char) : List Char :=
  input.dropWhile isSpaceOrTab

/-- What follows blanks, line ends and comments; none if a comment has a control
character. -/
def skipTrivia (inComment : Bool) : List Char → Option (List Char)
  | [] => some []
  | '\r' :: '\n' :: rest => skipTrivia false rest
  | c :: rest =>
      if c = '\n' then skipTrivia false rest
      else if inComment then if isControl c then none else skipTrivia true rest
      else if isSpaceOrTab c then skipTrivia false rest
      else if c = '#' then skipTrivia true rest
      else some (c :: rest)

/-- What follows the end of a statement: the rest of its line may only be blanks and a
comment. -/
def endLine (input : List Char) : Option (List Char) :=
  match skipBlanks input with
  | '#' :: rest => skipTrivia true rest
  | [] => some []
  | '\n' :: rest => some rest
  | '\r' :: '\n' :: rest => some rest
  | _ => none

/-! ## Keys -/

/-- Whether a character can be in a key without quotes. -/
def isBareKeyChar (c : Char) : Bool :=
  c.isAlphanum || c = '-' || c = '_'

/-- A key without its dots. -/
def readSimpleKey (input : List Char) : Option (String × List Char) :=
  match readQuoted input with
  | some found => some found
  | none =>
      match input.span isBareKeyChar with
      | ([], _) => none
      | (key, rest) => some (String.ofList key, rest)

/-- One or more keys with dots between them. -/
def readKeys : Nat → List Char → Option (List String × List Char)
  | 0, _ => none
  | fuel + 1, input => do
      let (key, rest) ← readSimpleKey (skipBlanks input)
      match skipBlanks rest with
      | '.' :: rest => do
          let (keys, rest) ← readKeys fuel rest
          some (key :: keys, rest)
      | rest => some ([key], rest)

/-! ## Values -/

mutual

/-- A value. -/
def readValue : Nat → List Char → Option (Value × List Char)
  | 0, _ => none
  | fuel + 1, input =>
      match input with
      | '[' :: rest => do
          let (items, rest) ← readItems fuel rest
          some (.array items, rest)
      | '\x7b' :: rest => do
          let (items, rest) ← readInlineTable fuel [] rest
          some (.table (valuesOf items), rest)
      | c :: _ =>
          if c = '"' ∨ c = '\'' then do
            let (text, rest) ← readString input
            some (.text text, rest)
          else do
            let (run, rest) := scalarRun input
            some (← scalarValue run, rest)
      | [] => none

/-- The items of an array up to its closing bracket. -/
def readItems : Nat → List Char → Option (List Value × List Char)
  | 0, _ => none
  | fuel + 1, input => do
      match ← skipTrivia false input with
      | ']' :: rest => some ([], rest)
      | input => do
          let (item, rest) ← readValue fuel input
          match ← skipTrivia false rest with
          | ',' :: rest => do
              let (items, rest) ← readItems fuel rest
              some (item :: items, rest)
          | ']' :: rest => some ([item], rest)
          | _ => none

/-- The keys and values of a table written as a value, up to its closing brace, added
to those already read. -/
def readInlineTable : Nat → Items → List Char → Option (Items × List Char)
  | 0, _, _ => none
  | fuel + 1, items, input => do
      match ← skipTrivia false input with
      | '\x7d' :: rest => some (items, rest)
      | input => do
          let (keys, rest) ← readKeys fuel input
          let rest ← expect '=' rest
          let (v, rest) ← readValue fuel (skipBlanks rest)
          let items ← insertValue keys v .header items
          match ← skipTrivia false rest with
          | ',' :: rest => readInlineTable fuel items rest
          | '\x7d' :: rest => some (items, rest)
          | _ => none

end

/-! ## Documents -/

/-- The keys of a header up to its closing bracket or brackets. -/
def readHeader (fuel : Nat) (row : Bool) (input : List Char) :
    Option (List String × List Char) := do
  let (keys, rest) ← readKeys fuel input
  let rest ← expect ']' rest
  let rest ← if row then expect ']' rest else some rest
  some (keys, rest)

/-- Reads statements into a document, with the keys of the header they stand under. -/
def readStatements : Nat → List String → Items → List Char → Option Items
  | 0, _, _, _ => none
  | fuel + 1, here, items, input => do
      match ← skipTrivia false input with
      | [] => some items
      | '[' :: '[' :: rest => do
          let (keys, rest) ← readHeader fuel true rest
          let items ← openHeader true keys items
          readStatements fuel keys items (← endLine rest)
      | '[' :: rest => do
          let (keys, rest) ← readHeader fuel false rest
          let items ← openHeader false keys items
          readStatements fuel keys items (← endLine rest)
      | input => do
          let (keys, rest) ← readKeys fuel input
          let rest ← expect '=' rest
          let (v, rest) ← readValue fuel (skipBlanks rest)
          let items ← changeAt false (insertValue keys v) here .header items
          readStatements fuel here items (← endLine rest)

/-- The keys and values of a document. A byte order mark in front is skipped. -/
def parse (document : String) : Option (List (String × Value)) :=
  let input :=
    match document.toList with
    | '\ufeff' :: rest => rest
    | input => input
  (readStatements (input.length + 2) [] [] input).map valuesOf

end WikiPress.Toml
