/-!
# WikiPress.Text.Blank

The classes of blank characters.

Design points:

* `isBlank` is the White_Space property of Unicode: 25 characters.
* `isAsciiBlank` and `isLineBlank` are the ASCII members of it, with and without the
  two that end lines.
-/

namespace WikiPress.Text

/-- Whether a character has the White_Space property. -/
def isBlank (c : Char) : Bool :=
  ('\t' ≤ c && c ≤ '\r') || c = ' ' || c = '\u0085' || c = '\u00a0' || c = '\u1680' ||
    ('\u2000' ≤ c && c ≤ '\u200a') || c = '\u2028' || c = '\u2029' || c = '\u202f' ||
    c = '\u205f' || c = '\u3000'

/-- Whether a character is blank and ASCII. -/
def isAsciiBlank (c : Char) : Bool :=
  ('\t' ≤ c && c ≤ '\r') || c = ' '

/-- Whether a character is blank, ASCII, and ends no line. -/
def isLineBlank (c : Char) : Bool :=
  isAsciiBlank c && c != '\n' && c != '\r'

/-- Whether a character is a space or a tab. -/
def isSpaceOrTab (c : Char) : Bool :=
  c = ' ' || c = '\t'

/-- The characters from the first that is not blank to the last. -/
def trim (blank : Char → Bool) (cs : List Char) : List Char :=
  ((cs.dropWhile blank).reverse.dropWhile blank).reverse

/-- The characters up to the last that is not blank. -/
def trimRight (blank : Char → Bool) (cs : List Char) : List Char :=
  (cs.reverse.dropWhile blank).reverse

/-- The maximal runs of characters that are not blank. -/
def words (blank : Char → Bool) (cs : List Char) : List (List Char) :=
  go [] cs
where
  /-- Reads on, with the characters of the current word in reverse. -/
  go (word : List Char) : List Char → List (List Char)
    | [] => if word.isEmpty then [] else [word.reverse]
    | c :: r =>
        if blank c then
          if word.isEmpty then go [] r else word.reverse :: go [] r
        else go (c :: word) r

/-- The first word of a text, empty if there is none. -/
def firstWord (s : String) : String :=
  String.ofList ((s.toList.dropWhile isBlank).takeWhile (!isBlank ·))

end WikiPress.Text
