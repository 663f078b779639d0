/-!
# WikiPress.Xml.Escape

Escaping of text for XML content and attribute values.

Design points:

* Escaping works character by character (`escapeChar`), so it distributes over
  concatenation and text may be escaped piece by piece as it arrives.
* Five characters are replaced, which is enough for element content and for
  attribute values in either kind of quotes.
* `unescape` reads the five entities back. It is the inverse that says the
  escaped text stands for the text it was made from.
-/

namespace WikiPress.Xml

/-- The written form of one character: an entity for the five markup characters. -/
def escapeChar : Char → List Char
  | '&' => "&amp;".toList
  | '<' => "&lt;".toList
  | '>' => "&gt;".toList
  | '"' => "&quot;".toList
  | '\'' => "&#39;".toList
  | c => [c]

/-- The written form of a sequence of characters. -/
def escapeChars (cs : List Char) : List Char :=
  cs.flatMap escapeChar

/-- Text that may stand in XML content or in an attribute value. -/
def escape (s : String) : String :=
  String.ofList (escapeChars s.toList)

/-- Reads the five entities back, left to right; any other `&` stands for itself. -/
def unescapeChars : List Char → List Char
  | '&' :: 'a' :: 'm' :: 'p' :: ';' :: r => '&' :: unescapeChars r
  | '&' :: 'l' :: 't' :: ';' :: r => '<' :: unescapeChars r
  | '&' :: 'g' :: 't' :: ';' :: r => '>' :: unescapeChars r
  | '&' :: 'q' :: 'u' :: 'o' :: 't' :: ';' :: r => '"' :: unescapeChars r
  | '&' :: '#' :: '3' :: '9' :: ';' :: r => '\'' :: unescapeChars r
  | c :: r => c :: unescapeChars r
  | [] => []

@[simp] theorem escapeChars_nil : escapeChars [] = [] := rfl

@[simp] theorem escapeChars_cons (c : Char) (cs : List Char) :
    escapeChars (c :: cs) = escapeChar c ++ escapeChars cs := rfl

@[simp] theorem escapeChars_append (a b : List Char) :
    escapeChars (a ++ b) = escapeChars a ++ escapeChars b := by
  simp [escapeChars]

@[simp] theorem toList_escape (s : String) : (escape s).toList = escapeChars s.toList := by
  simp [escape]

end WikiPress.Xml
