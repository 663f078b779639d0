import WikiPress.Markdown.Source
import WikiPress.Markup.Event

/-!
# WikiPress.Markdown.Heading

Headings and their attribute blocks.

Design points:

* A heading is marked by one to six number signs in front of its line, or by a line of
  equals signs or hyphens under its paragraph.
* Braces at the end of a heading's text hold attributes. Only the identifier counts: the
  last word that begins with a number sign and has more to it. A block cannot hold
  braces, angle brackets, backslashes or line breaks.
-/

namespace WikiPress.Markdown

open WikiPress.Markup (HeadingLevel)
open WikiPress.Text

/-- The level of the heading whose number signs begin a text, and the text after them. -/
def numberSigns? (cs : List Char) : Option (HeadingLevel × List Char) :=
  let (count, rest) := countRun '#' cs
  if rest.head?.all isAsciiBlank then (HeadingLevel.ofNat? count).map (·, rest) else none

/-- The level of the heading that a line underlines, and the text after the line. -/
def underline? : List Char → Option (HeadingLevel × List Char)
  | '=' :: r => (afterBlankLine? (r.dropWhile (· = '='))).map (HeadingLevel.one, ·)
  | '-' :: r => (afterBlankLine? (r.dropWhile (· = '-'))).map (HeadingLevel.two, ·)
  | _ => none

/-- Whether a character may stand in an attribute block. -/
def isAttributeBlockChar (c : Char) : Bool :=
  c != '\x7b' && c != '\x7d' && c != '<' && c != '>' && c != '\\' && c != '\n' && c != '\r'

/-- Whether a character separates attributes. -/
def isAttributeBlank (c : Char) : Bool :=
  c = ' ' || c = '\t' || c = '\n' || c = '\r' || c = '\x0c'

/-- The identifier an attribute block gives. -/
def identifierOf (block : List Char) : Option String :=
  ((words isAttributeBlank block).filterMap fun
    | '#' :: c :: r => some (String.ofList (c :: r))
    | _ => none).getLast?

/-- A heading's text without the attribute block at its end, and the identifier that the block
gives; `none` if there is no block. -/
def splitAttributes? (s : Source) : Option (Source × Option String) :=
  match s.reverse.dropWhile (Glyph.isChar fun c => isSpaceOrTab c || c = '\r' || c = '\n') with
  | .char '\x7d' :: r =>
      let block := r.takeWhile (Glyph.isChar isAttributeBlockChar)
      match r.drop block.length with
      | .char '\x7b' :: before => some (before.reverse, identifierOf (Source.plain block.reverse))
      | _ => none
  | _ => none

/-- The text of a heading line without blanks and number signs that close it. -/
def dropClosingSigns (line : List Char) : List Char :=
  let line := trimRight (fun c => c = ' ' || c = '\r' || c = '\n') line
  let inner := trimRight (· = '#') line
  if inner.isEmpty then []
  else if inner.getLast? = some ' ' then trimRight (· = ' ') inner
  else line

/-- The text of a heading line after its number signs, and its identifier. -/
def headingText (line : List Char) : Source × Option String :=
  let line := line.dropWhile isLineBlank
  match splitAttributes? (Source.ofChars line) with
  | some (text, id) => (Source.ofChars (dropClosingSigns (Source.plain text)), id)
  | none => (Source.ofChars (dropClosingSigns line), none)

/-- Whether a source ends with a backslash that escapes nothing in front of it. -/
def endsWithBackslash (s : Source) : Bool :=
  (s.reverse.takeWhile (·.eqChar '\\')).length % 2 = 1

/-- The text of an underlined heading, and its identifier. A backslash at its end is no part of
what an attribute block ends. -/
def underlinedText (s : Source) : Source × Option String :=
  let (text, slash) := if endsWithBackslash s then (s.dropLast, [Glyph.char '\\']) else (s, [])
  match splitAttributes? text with
  | some (before, id) =>
      ((if slash.isEmpty then Source.trimRight before else before) ++ slash, id)
  | none => (text ++ slash, none)

end WikiPress.Markdown
