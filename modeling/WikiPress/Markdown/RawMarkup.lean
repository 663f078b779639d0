import WikiPress.Markdown.Source

/-!
# WikiPress.Markdown.RawMarkup

The grammar of raw markup: tags, comments, processing instructions, declarations and
CDATA sections, and the starts of raw blocks.

Design points:

* One grammar of tags serves running text and raw blocks: a line on its own is a source
  without line breaks.
* A function that reads markup returns the source after it.
* In running text a tag is written without the margins of the lines it spans, and every
  other kind of markup as it stands.
-/

namespace WikiPress.Markdown

namespace Source

/-- Whether a character may stand in a tag name after the first. -/
def isTagNameChar (c : Char) : Bool := c.isAlphanum || c = '-'

/-- Whether a character may begin an attribute name. -/
def isAttributeStart (c : Char) : Bool := c.isAlpha || c = '_' || c = ':'

/-- Whether a character may stand in an attribute name after the first. -/
def isAttributeChar (c : Char) : Bool :=
  c.isAlphanum || c = '_' || c = '.' || c = ':' || c = '-'

/-- Whether a character may stand in an attribute value without quotes. -/
def isUnquotedChar (c : Char) : Bool :=
  !(['\'', '\"', ' ', '=', '>', '<', '\x60', '\n', '\r'].contains c)

/-- The source after a name that begins with one class and goes on with another. -/
def name? (first more : Char → Bool) : Source → Option Source
  | .char c :: r => if first c then some (r.dropWhile (Glyph.isChar more)) else none
  | _ => none

/-- The source after an attribute value. -/
def attributeValue? : Source → Option Source
  | .char c :: r =>
      if c = '\"' || c = '\'' then
        match r.dropWhile (!·.eqChar c) with
        | _ :: rest => some rest
        | [] => none
      else if isUnquotedChar c then some (r.dropWhile (Glyph.isChar isUnquotedChar))
      else none
  | _ => none

/-- The source after an attribute; space behind an attribute without a value is left. -/
def attribute? (s : Source) : Option Source := do
  let afterName ← name? isAttributeStart isAttributeChar s
  match skipSpace afterName with
  | .char '=' :: r => attributeValue? (skipSpace r)
  | _ => some afterName

/-- The source after the attributes of a tag, each with space in front, and the space
behind them. -/
def attributes? (s : Source) : Option Source :=
  let r := skipSpace s
  match r with
  | .char '/' :: _ => some r
  | .char '>' :: _ => some r
  | _ =>
      if r.length < s.length then
        match attribute? r with
        | some rest => if rest.length < s.length then attributes? rest else none
        | none => none
      else none
termination_by s.length

/-- The source after an opening tag, read after its angle bracket. -/
def openingTag? (s : Source) : Option Source := do
  let r ← name? Char.isAlpha isTagNameChar s
  let r ← attributes? r
  let r := match r with
    | .char '/' :: rest => rest
    | rest => rest
  dropChars? ['>'] r

/-- The source after a closing tag, read after its slash. -/
def closingTag? (s : Source) : Option Source := do
  let r ← name? Char.isAlpha isTagNameChar s
  dropChars? ['>'] (skipBlanks r)

/-- The source after a tag, read after its angle bracket. -/
def tag? : Source → Option Source
  | .char '/' :: r => closingTag? r
  | s => openingTag? s

/-- The source after a comment, read after its exclamation mark. -/
def comment? (s : Source) : Option Source := do
  let r ← dropChars? ['-', '-'] s
  match r with
  | .char '>' :: rest => some rest
  | .char '-' :: .char '>' :: rest => some rest
  | _ => dropPast? ['-', '-', '>'] r

/-- The source after a CDATA section, read after its exclamation mark: the first run of
closing brackets has to end it. -/
def cdataSection? (s : Source) : Option Source := do
  let r ← dropChars? "[CDATA[".toList s
  let r := r.dropWhile (!·.eqChar ']')
  if r.isEmpty then none else dropChars? ['>'] (r.dropWhile (·.eqChar ']'))

/-- The source after a declaration, read after its exclamation mark. -/
def declaration? : Source → Option Source
  | .char c :: r => if c.isAlpha then dropPast? ['>'] r else none
  | _ => none

/-- Raw markup in running text, read after its angle bracket: how it is written, without
the bracket, and the source after it. -/
def inlineMarkup? (s : Source) : Option (List Char × Source) :=
  match s with
  | .char '!' :: r =>
      (comment? r <|> cdataSection? r <|> declaration? r).map fun rest =>
        ((s.upTo rest).raw, rest)
  | .char '?' :: r => (dropPast? ['?', '>'] r).map fun rest => ((s.upTo rest).raw, rest)
  | _ => (tag? s).map fun rest => ((s.upTo rest).plain, rest)

end Source

/-- What ends a raw block. -/
inductive RawBlockEnd
  /-- A line that holds a sequence of characters. -/
  | containing (cs : List Char)
  /-- A blank line. -/
  | blank
  deriving DecidableEq, Repr

/-- The elements whose raw block goes on to their end tag. -/
def verbatimElements : List String := ["pre", "style", "script", "textarea"]

/-- The elements that begin a raw block wherever their tag begins a line. -/
def blockElements : List String :=
  ["address", "article", "aside", "base", "basefont", "blockquote", "body", "caption",
   "center", "col", "colgroup", "dd", "details", "dialog", "dir", "div", "dl", "dt",
   "fieldset", "figcaption", "figure", "footer", "form", "frame", "frameset", "h1", "h2",
   "h3", "h4", "h5", "h6", "head", "header", "hr", "html", "iframe", "legend", "li", "link",
   "main", "menu", "menuitem", "nav", "noframes", "ol", "optgroup", "option", "p", "param",
   "search", "section", "summary", "table", "tbody", "td", "tfoot", "th", "thead", "title",
   "tr", "track", "ul"]

/-- The text after a word, letter case ignored. -/
def dropWord? : List Char → List Char → Option (List Char)
  | [], cs => some cs
  | w :: ws, c :: cs => if w = c.toLower then dropWord? ws cs else none
  | _ :: _, [] => none

/-- The end tag of the raw block that the tag of a verbatim element begins, read after the
angle bracket. -/
def verbatimEnd? (cs : List Char) : Option (List Char) :=
  verbatimElements.findSome? fun name =>
    match dropWord? name.toList cs with
    | some [] => some ("</" ++ name ++ ">").toList
    | some (c :: _) =>
        if Text.isAsciiBlank c || c = '>' then some ("</" ++ name ++ ">").toList else none
    | none => none

/-- What ends the raw block that markup other than a tag begins, read after the angle
bracket. -/
def specialEnd? : List Char → Option (List Char)
  | '!' :: '-' :: '-' :: _ => some "-->".toList
  | '?' :: _ => some "?>".toList
  | '!' :: '[' :: 'C' :: 'D' :: 'A' :: 'T' :: 'A' :: '[' :: _ => some "]]>".toList
  | '!' :: c :: _ => if c.isAlpha then some ">".toList else none
  | _ => none

/-- Whether the tag of a block element begins a text, read after the angle bracket. -/
def startsBlockElement (cs : List Char) : Bool :=
  let cs := match cs with
    | '/' :: r => r
    | r => r
  let name := String.ofList ((cs.takeWhile Char.isAlphanum).map Char.toLower)
  blockElements.contains name &&
    match cs.dropWhile Char.isAlphanum with
    | [] => true
    | '/' :: '>' :: _ => true
    | c :: _ => c = ' ' || c = '\t' || c = '\r' || c = '\n' || c = '>'

/-- Whether a complete tag stands alone on the rest of a line, read after the angle
bracket. -/
def startsLoneTag (cs : List Char) : Bool :=
  match Source.tag? (Source.ofChars (splitLine cs).1) with
  | some rest => rest.all (Glyph.isChar Text.isLineBlank)
  | none => false

/-- What ends the raw block that begins a text; one that a lone tag begins cannot
interrupt a paragraph. -/
def rawBlockEnd? (interrupting : Bool) : List Char → Option RawBlockEnd
  | '<' :: cs =>
      match verbatimEnd? cs <|> specialEnd? cs with
      | some ending => some (.containing ending)
      | none =>
          if startsBlockElement cs || (!interrupting && startsLoneTag cs) then some .blank
          else none
  | _ => none

end WikiPress.Markdown
