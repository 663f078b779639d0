import WikiPress.Json.Value
import WikiPress.Text.Digits

/-!
# WikiPress.Json.Printer

Writes a JSON document over several lines: every item and every member on its own line,
indented by its depth.

Design points:

* Only what the grammar forbids in strings is escaped; everything else is written as it
  is.
* A string that denotes no text is written as half a surrogate pair, which is what the
  reader makes of it again.
-/

namespace WikiPress.Json

open WikiPress.Text (hexDigits)

/-- The characters that write a character in a string. -/
def escapeChar (c : Char) : List Char :=
  if c = '"' then ['\\', '"']
  else if c = '\\' then ['\\', '\\']
  else if c = '\x08' then ['\\', 'b']
  else if c = '\t' then ['\\', 't']
  else if c = '\n' then ['\\', 'n']
  else if c = '\x0c' then ['\\', 'f']
  else if c = '\r' then ['\\', 'r']
  else if c.toNat < 32 then '\\' :: 'u' :: hexDigits 4 c.toNat
  else [c]

/-- A string with its quotes. -/
def writeText : Option String → List Char
  | some text => '"' :: text.toList.flatMap escapeChar ++ ['"']
  | none => "\"\\ud800\"".toList

/-- The start of a line at a depth. -/
def newLine (indent depth : Nat) : List Char :=
  '\n' :: List.replicate (indent * depth) ' '

mutual

/-- A value whose lines are at a depth. -/
def writeValue (indent depth : Nat) : Value → List Char
  | .null => "null".toList
  | .boolean true => "true".toList
  | .boolean false => "false".toList
  | .number digits => digits.toList
  | .text content => writeText content
  | .array [] => ['[', ']']
  | .array (item :: items) =>
      '[' :: newLine indent (depth + 1) ++ writeValue indent (depth + 1) item
        ++ writeItems indent depth items
  | .object [] => ['\x7b', '\x7d']
  | .object ((name, value) :: members) =>
      '\x7b' :: newLine indent (depth + 1) ++ writeText name ++ [':', ' ']
        ++ writeValue indent (depth + 1) value ++ writeMembers indent depth members

/-- The items behind the first, and the end of the array. -/
def writeItems (indent depth : Nat) : List Value → List Char
  | [] => newLine indent depth ++ [']']
  | item :: items =>
      ',' :: newLine indent (depth + 1) ++ writeValue indent (depth + 1) item
        ++ writeItems indent depth items

/-- The members behind the first, and the end of the object. -/
def writeMembers (indent depth : Nat) : List (Option String × Value) → List Char
  | [] => newLine indent depth ++ ['\x7d']
  | (name, value) :: members =>
      ',' :: newLine indent (depth + 1) ++ writeText name ++ [':', ' ']
        ++ writeValue indent (depth + 1) value ++ writeMembers indent depth members

end

/-- The document of a value, indented by so many spaces for each depth. -/
def print (indent : Nat) (value : Value) : String :=
  String.ofList (writeValue indent 0 value)

end WikiPress.Json
