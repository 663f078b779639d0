import WikiPress.Markdown.Line

/-!
# WikiPress.Markdown.Source

The text of a leaf as its inlines see it.

Design points:

* A `Glyph` is a character or a line break. A break keeps the line ending as written
  and the margin of the next line, the part that belongs to the open containers.
  Every construct decides for itself what it makes of a break.
* White space between the margin and the text of a line is part of the source: running
  text drops it and code spans keep it.
-/

namespace WikiPress.Markdown

/-- A character of a leaf, or a line break in it. -/
inductive Glyph
  | char (c : Char)
  | lineBreak (ending margin : String)
  deriving DecidableEq, Repr

/-- The source of a leaf. -/
abbrev Source := List Glyph

/-- A source on a single line. -/
def Source.ofChars (cs : List Char) : Source := cs.map .char

/-- The characters of a glyph without the margin. -/
def Glyph.plain : Glyph → List Char
  | .char c => [c]
  | .lineBreak ending _ => ending.toList

/-- The characters of a glyph as they stand in the text. -/
def Glyph.raw : Glyph → List Char
  | .char c => [c]
  | .lineBreak ending margin => ending.toList ++ margin.toList

/-- The first character as it stands in the text. -/
def Glyph.firstChar : Glyph → Char
  | .char c => c
  | .lineBreak .. => '\n'

/-- The last character as it stands in the text. -/
def Glyph.lastChar (g : Glyph) : Char :=
  g.raw.getLast?.getD '\n'

/-- Whether a glyph is a character of a class. -/
def Glyph.isChar (p : Char → Bool) : Glyph → Bool
  | .char c => p c
  | .lineBreak .. => false

/-- Whether a glyph is the given character. -/
def Glyph.eqChar (c : Char) : Glyph → Bool := Glyph.isChar (· = c)

namespace Source

/-- The characters of a source without margins. -/
def plain (s : Source) : List Char := s.flatMap Glyph.plain

/-- The characters of a source as they stand in the text. -/
def raw (s : Source) : List Char := s.flatMap Glyph.raw

/-- The part of a source in front of a later position in it. -/
def upTo (s rest : Source) : Source := s.take (s.length - rest.length)

/-- The rest of a source after an expected sequence of characters. -/
def dropChars? : List Char → Source → Option Source
  | [], s => some s
  | c :: cs, .char d :: r => if c = d then dropChars? cs r else none
  | _ :: _, _ => none

/-- The source after the first occurrence of a sequence of characters. -/
def dropPast? (cs : List Char) : Source → Option Source
  | [] => if cs.isEmpty then some [] else none
  | g :: r =>
      match dropChars? cs (g :: r) with
      | some rest => some rest
      | none => dropPast? cs r

/-- The source after blanks of its current line. -/
def skipBlanks (s : Source) : Source := s.dropWhile (Glyph.isChar Text.isLineBlank)

/-- The source after blanks and line breaks. -/
def skipSpace (s : Source) : Source :=
  s.dropWhile fun
    | .char c => Text.isLineBlank c
    | .lineBreak .. => true

/-- The source after blanks and at most one line break. -/
def skipSeparator (s : Source) : Source :=
  match skipBlanks s with
  | .lineBreak _ _ :: r => skipBlanks r
  | r => r

/-- The source without the blanks at its end. -/
def trimRight (s : Source) : Source :=
  (s.reverse.dropWhile (Glyph.isChar Text.isLineBlank)).reverse

end Source

end WikiPress.Markdown
