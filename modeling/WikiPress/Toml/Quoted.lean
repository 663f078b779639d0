import WikiPress.Text.Blank
import WikiPress.Text.Digits

/-!
# WikiPress.Toml.Quoted

Strings: in double quotes with escapes, in single quotes without, and both over several
lines between tripled quotes.

Design points:

* Each function reads on behind the opening quotes and gives the text and what follows
  the closing ones.
* Up to two quotes may stand directly in front of the closing three, so a row of more
  than five quotes ends no string.
-/

namespace WikiPress.Toml

open WikiPress.Text (hexDigit? hexNumber isHexDigit isSpaceOrTab)

/-- Whether a character may not stand in a line as it is. -/
def isControl (c : Char) : Bool :=
  (c.toNat < 32 && c != '\t') || c = '\x7f'

/-- The character a short escape stands for. -/
def shortEscape : Char → Option Char
  | '"' => some '"'
  | '\\' => some '\\'
  | 'b' => some '\x08'
  | 'e' => some '\x1b'
  | 'f' => some '\x0c'
  | 'n' => some '\n'
  | 'r' => some '\r'
  | 't' => some '\t'
  | _ => none

/-- How many hexadecimal digits an escape is followed by. -/
def escapeLength : Char → Option Nat
  | 'x' => some 2
  | 'u' => some 4
  | 'U' => some 8
  | _ => none

/-- The character of some hexadecimal digits. -/
def charOfDigits (digits : List Char) : Option Char :=
  let code := hexNumber digits
  if digits.all isHexDigit ∧ code.isValidChar then some (Char.ofNat code) else none

/-- The character an escape stands for, and how many characters it takes behind the
backslash. -/
def readEscape : List Char → Option (Char × Nat)
  | [] => none
  | e :: rest =>
      match escapeLength e with
      | some count =>
          if rest.length < count then none
          else (charOfDigits (rest.take count)).map (·, count + 1)
      | none => (shortEscape e).map (·, 1)

/-- Puts a character in front of a text that was read. -/
def consText (c : Char) (found : List Char × List Char) : List Char × List Char :=
  (c :: found.1, found.2)

/-- Reads a string in double quotes; `skip` characters belong to an escape already
read. -/
def readBasic (skip : Nat) : List Char → Option (List Char × List Char)
  | [] => none
  | c :: rest =>
      match skip with
      | skip + 1 => readBasic skip rest
      | 0 =>
          if c = '"' then some ([], rest)
          else if c = '\\' then
            match readEscape rest with
            | some (e, count) => (readBasic count rest).map (consText e)
            | none => none
          else if isControl c then none
          else (readBasic 0 rest).map (consText c)

/-- Reads a string in single quotes. -/
def readLiteral : List Char → Option (List Char × List Char)
  | [] => none
  | c :: rest =>
      if c = '\'' then some ([], rest)
      else if isControl c then none
      else (readLiteral rest).map (consText c)

/-- How many of a quote the input starts with. -/
def quotes (quote : Char) (input : List Char) : Nat :=
  (input.takeWhile (· = quote)).length

/-- How many blank characters and line ends follow a backslash that ends its line; none
if it does not end its line. -/
def continuation (input : List Char) : Option Nat :=
  match input.dropWhile isSpaceOrTab with
  | '\n' :: _ | '\r' :: '\n' :: _ =>
      some (input.takeWhile fun c => isSpaceOrTab c || c = '\n' || c = '\r').length
  | _ => none

/-- Reads a string between tripled quotes; `skip` characters were already dealt
with. -/
def readMultiline (quote : Char) (skip : Nat) : List Char → Option (List Char × List Char)
  | [] => none
  | c :: rest =>
      match skip with
      | skip + 1 => readMultiline quote skip rest
      | 0 =>
          if c = quote then
            let count := quotes quote (c :: rest)
            if 5 < count then none
            else if count = 3 then some ([], rest.drop 2)
            else (readMultiline quote 0 rest).map (consText c)
          else if c = '\\' ∧ quote = '"' then
            match continuation rest with
            | some count => readMultiline quote count rest
            | none =>
                match readEscape rest with
                | some (e, count) => (readMultiline quote count rest).map (consText e)
                | none => none
          else if c = '\n' ∨ (c = '\r' ∧ rest.head? = some '\n') then
            (readMultiline quote 0 rest).map (consText c)
          else if isControl c then none
          else (readMultiline quote 0 rest).map (consText c)

/-- Drops the line end directly behind opening quotes. -/
def dropFirstNewline : List Char → List Char
  | '\n' :: rest => rest
  | '\r' :: '\n' :: rest => rest
  | input => input

/-- Reads a string of one line, which is also what a quoted key is. -/
def readQuoted : List Char → Option (String × List Char)
  | '"' :: rest => (readBasic 0 rest).map fun (cs, rest) => (String.ofList cs, rest)
  | '\'' :: rest => (readLiteral rest).map fun (cs, rest) => (String.ofList cs, rest)
  | _ => none

/-- Reads a string of either form. -/
def readString : List Char → Option (String × List Char)
  | '"' :: '"' :: '"' :: rest =>
      (readMultiline '"' 0 (dropFirstNewline rest)).map fun (cs, rest) =>
        (String.ofList cs, rest)
  | '\'' :: '\'' :: '\'' :: rest =>
      (readMultiline '\'' 0 (dropFirstNewline rest)).map fun (cs, rest) =>
        (String.ofList cs, rest)
  | input => readQuoted input

end WikiPress.Toml
