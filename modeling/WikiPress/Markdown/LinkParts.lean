import WikiPress.Markdown.Reference
import WikiPress.Text.CaseFold

/-!
# WikiPress.Markdown.LinkParts

The parts links are made of: destinations, titles and labels.

Design points:

* A reader takes a source to what was read and the source after it.
* A destination stands in angle brackets, or is a run without blanks in which
  parentheses are balanced up to a given depth.
* A label stands for its `key`: outer blanks are dropped, inner ones count as one space,
  and letter case is folded. Two labels match when their keys are equal.
-/

namespace WikiPress.Markdown

open WikiPress.Text

/-- A link definition. -/
structure Definition where
  key : List Char
  destination : String
  title : String
  deriving DecidableEq, Repr

namespace Source

/-- A destination in angle brackets, read after the first. -/
def pointyDestination? : Source → Option (List Char × Source)
  | .char '>' :: r => some ([], r)
  | .char '<' :: _ => none
  | .char '\\' :: .char c :: r =>
      if isAsciiPunctuation c then
        (pointyDestination? r).map fun (cs, rest) => ('\\' :: c :: cs, rest)
      else (pointyDestination? (.char c :: r)).map fun (cs, rest) => ('\\' :: cs, rest)
  | .char c :: r => (pointyDestination? r).map fun (cs, rest) => (c :: cs, rest)
  | .lineBreak .. :: _ => none
  | [] => none

/-- A destination without angle brackets; `nested` parentheses are open, and no more than
one beyond `limit` may be. -/
def bareDestination? (limit : Nat) (nested : Nat) : Source → Option (List Char × Source)
  | .char '\\' :: .char c :: r =>
      if isAsciiPunctuation c then
        (bareDestination? limit nested r).map fun (cs, rest) => ('\\' :: c :: cs, rest)
      else
        (bareDestination? limit nested (.char c :: r)).map fun (cs, rest) => ('\\' :: cs, rest)
  | .char '(' :: r =>
      if nested > limit then none
      else (bareDestination? limit (nested + 1) r).map fun (cs, rest) => ('(' :: cs, rest)
  | .char ')' :: r =>
      if nested = 0 then some ([], .char ')' :: r)
      else (bareDestination? limit (nested - 1) r).map fun (cs, rest) => (')' :: cs, rest)
  | .char c :: r =>
      if c ≤ ' ' then if nested = 0 then some ([], .char c :: r) else none
      else (bareDestination? limit nested r).map fun (cs, rest) => (c :: cs, rest)
  | s => if nested = 0 then some ([], s) else none

/-- A destination as written, without its angle brackets. -/
def destination? (limit : Nat) : Source → Option (List Char × Source)
  | .char '<' :: r => pointyDestination? r
  | s => bareDestination? limit 0 s

/-- The quote that ends a title, by the one that begins it. -/
def titleEnd? : Char → Option Char
  | '\"' => some '\"'
  | '\'' => some '\''
  | '(' => some ')'
  | _ => none

/-- What a line ending is in the title of an inline link. -/
def titleBreak (ending : String) : List Char :=
  if ending = "\r\n" then ['\r', '\n'] else ['\n']

/-- The title of an inline link with references and escapes resolved, read after the quote
that begins it. The lines after the first lose the blanks in front. -/
def inlineTitle? (inTable : Bool) (opening ending : Char) (s : Source) :
    Option (List Char × Source) :=
  go s.length s
where
  /-- Reads on, for at most so many steps. -/
  go : Nat → Source → Option (List Char × Source)
    | 0, _ => none
    | _, [] => none
    | n + 1, .lineBreak le _ :: r =>
        (go n (r.dropWhile (Glyph.isChar isSpaceOrTab))).map fun (cs, rest) =>
          (titleBreak le ++ cs, rest)
    | n + 1, .char c :: r =>
        if c = ending then some ([], r)
        else if c = opening then none
        else
          match c, r with
          | '&', r =>
              match Source.characterReference? r with
              | some (image, rest) => (go n rest).map fun (cs, rest) => (image ++ cs, rest)
              | none => (go n r).map fun (cs, rest) => ('&' :: cs, rest)
          | '\\', .char d :: r' =>
              if inTable && d = '\\' && r'.head?.any (·.eqChar '|') then
                (go n (r'.drop 1)).map fun (cs, rest) => ('|' :: cs, rest)
              else if isAsciiPunctuation d then
                (go n r').map fun (cs, rest) => (d :: cs, rest)
              else (go n r).map fun (cs, rest) => ('\\' :: cs, rest)
          | c, r => (go n r).map fun (cs, rest) => (c :: cs, rest)

/-- The most characters a label may have. -/
def labelLimit : Nat := 999

/-- The characters of a label, read after its opening bracket; a line break is a line feed.
A label holds no bracket that is not escaped, and no blank line. -/
def labelText? : Source → Option (List Char × Source)
  | .char ']' :: r => some ([], r)
  | .char '[' :: _ => none
  | .char '\\' :: .char c :: r =>
      (labelText? r).map fun (cs, rest) => ('\\' :: c :: cs, rest)
  | .char c :: r => (labelText? r).map fun (cs, rest) => (c :: cs, rest)
  | .lineBreak .. :: r => (labelText? r).map fun (cs, rest) => ('\n' :: cs, rest)
  | [] => none

/-- Whether a label has a character that is neither blank nor escaped. -/
def isLabelText : List Char → Bool
  | '\\' :: _ :: r => isLabelText r
  | c :: r => !isAsciiBlank c || isLabelText r
  | [] => false

/-- What a label stands for. -/
def labelKey (text : List Char) : List Char :=
  foldCase (" ".toList.intercalate (words isAsciiBlank text))

/-- A label's key, read after its opening bracket. -/
def label? (s : Source) : Option (List Char × Source) := do
  let (text, rest) ← labelText? s
  if isLabelText text && text.length ≤ labelLimit then some (labelKey text, rest) else none

/-- What follows the text of an inline link in parentheses, read after the opening one:
destination, title, and the source after the closing one. -/
def inlineTail? (inTable : Bool) (s : Source) : Option (String × String × Source) := do
  let (destination, r) ← destination? 32 (skipSeparator s)
  let destination := String.ofList (unescape inTable destination)
  let r := skipSeparator r
  let (title, r) := (titleOf r).getD ([], r)
  let rest ← dropChars? [')'] r
  some (destination, String.ofList title, rest)
where
  /-- A title, and the source after it and its separator. -/
  titleOf : Source → Option (List Char × Source)
    | .char c :: r => do
        let ending ← titleEnd? c
        let (title, rest) ← inlineTitle? inTable c ending r
        some (title, skipSeparator rest)
    | _ => none

/-- The source without white space of up to four columns in front. -/
def dropIndent : Nat → Source → Source
  | n + 1, .char ' ' :: r => dropIndent n r
  | _ + 1, .char '\t' :: r => r
  | _, s => s

/-- The title of a link definition as written, read after the quote that begins it. -/
def definitionTitle? (ending : Char) (s : Source) : Option (List Char × Source) :=
  go s.length s
where
  /-- Reads on, for at most so many steps. -/
  go : Nat → Source → Option (List Char × Source)
    | 0, _ => none
    | _, [] => none
    | n + 1, .lineBreak .. :: r =>
        (go n (dropIndent 4 r)).map fun (cs, rest) => ('\n' :: cs, rest)
    | n + 1, .char c :: r =>
        if c = ending then some ([], r)
        else
          match c, r with
          | '\\', .char d :: r' => (go n r').map fun (cs, rest) => ('\\' :: d :: cs, rest)
          | c, r => (go n r).map fun (cs, rest) => (c :: cs, rest)

/-- Whether a source has only blanks before its next line break. -/
def endsLine (s : Source) : Bool :=
  match skipBlanks s with
  | [] => true
  | .lineBreak .. :: _ => true
  | .char _ :: _ => false

/-- The title of a link definition, which has to end its line. -/
def titleEndingLine? : Source → Option (String × Source)
  | .char c :: r => do
      let ending ← titleEnd? c
      let (title, rest) ← definitionTitle? ending r
      if endsLine rest then some (String.ofList (unescape false title), rest) else none
  | _ => none

/-- The link definition a source begins with, and the source after it. A title on a line of
its own that does not end that line is no part of the definition. -/
def definition? : Source → Option (Definition × Source)
  | .char '[' :: s => do
      let (key, r) ← label? s
      let r ← dropChars? [':'] r
      let start := skipSeparator r
      let (written, afterDestination) ← destination? 1 start
      let next := skipSeparator afterDestination
      let destination := String.ofList (unescape false written)
      if afterDestination.length < start.length then
        match titleEndingLine? next with
        | some (title, rest) =>
            if next.length < afterDestination.length then
              some (⟨key, destination, title⟩, rest)
            else none
        | none =>
            if endsLine afterDestination then some (⟨key, destination, ""⟩, afterDestination)
            else none
      else none
  | _ => none

end Source

end WikiPress.Markdown
