import WikiPress.Markdown.Source
import WikiPress.Text.Entity
import WikiPress.Text.Punctuation

/-!
# WikiPress.Markdown.Reference

Character references and backslash escapes.

Design points:

* A reference is named (`&amp;`), decimal (up to seven digits) or hexadecimal (up to
  six). One that is not well formed stands for itself.
* `unescape` is for text that holds no other markup: destinations, info strings and
  the titles of link definitions. In a table `\|` has to survive the splitting of
  cells, so there two backslashes in front of a pipe stand for none.
-/

namespace WikiPress.Markdown

open WikiPress.Text

/-- The digits in front of a text if a semicolon follows them, and the text after it. -/
def numberBeforeSemicolon? (digit : Char → Bool) (limit : Nat) (cs : List Char) :
    Option (List Char × List Char) :=
  let digits := cs.takeWhile digit
  match cs.dropWhile digit with
  | ';' :: rest =>
      if digits.isEmpty || digits.length > limit then none else some (digits, rest)
  | _ => none

/-- The characters a reference stands for, read after its ampersand, and the text after
the reference. -/
def characterReference? : List Char → Option (List Char × List Char)
  | '#' :: 'x' :: r => hexadecimal r
  | '#' :: 'X' :: r => hexadecimal r
  | '#' :: r =>
      (numberBeforeSemicolon? Char.isDigit 7 r).map fun (digits, rest) =>
        ([numericReference (decimalNumber digits)], rest)
  | cs =>
      let name := cs.takeWhile Char.isAlphanum
      match cs.dropWhile Char.isAlphanum with
      | ';' :: rest => (namedReference? name).map (·, rest)
      | _ => none
where
  /-- A hexadecimal reference, read after its mark. -/
  hexadecimal (r : List Char) : Option (List Char × List Char) :=
    (numberBeforeSemicolon? isHexDigit 6 r).map fun (digits, rest) =>
      ([numericReference (hexNumber digits)], rest)

/-- The character reference in front of a source, read after its ampersand. -/
def Source.characterReference? (s : Source) : Option (List Char × Source) :=
  let line := s.takeWhile (Glyph.isChar fun c => c.isAlphanum || c = '#' || c = ';')
  (Markdown.characterReference? (Source.plain line)).map fun (cs, rest) =>
    (cs, s.drop (line.length - rest.length))

/-- Resolves references and escapes. -/
def unescape (inTable : Bool) (cs : List Char) : List Char :=
  go cs.length cs
where
  /-- Reads on, for at most so many steps. -/
  go : Nat → List Char → List Char
    | 0, _ => []
    | _, [] => []
    | n + 1, '\\' :: r =>
        match inTable, r with
        | true, '\\' :: '|' :: r' => '|' :: go n r'
        | _, c :: r' => if isAsciiPunctuation c then c :: go n r' else '\\' :: go n r
        | _, [] => ['\\']
    | n + 1, '&' :: r =>
        match Markdown.characterReference? r with
        | some (image, rest) => image ++ go n rest
        | none => '&' :: go n r
    | n + 1, '\r' :: r => go n r
    | n + 1, c :: r => c :: go n r

end WikiPress.Markdown
