import WikiPress.Xml.Escape

/-!
# WikiPress.Storage.Macro

The macro markup of the wiki's storage format.

Design points:

* An attachment macro is written in two parts, because its children come between
  them. A link continues into an open CDATA section, which holds its plain text.
* Text inside a CDATA section is literal except for the section's terminator, which
  is cut across two sections (`cdata`).
-/

namespace WikiPress.Storage

open WikiPress.Xml (escape)

/-- The table of contents every page begins with. -/
def tableOfContents : String :=
  "\n<ac:structured-macro ac:name=\"toc\">\n" ++
    "\t<ac:parameter ac:name=\"outline\">true</ac:parameter>\n" ++
    "</ac:structured-macro>\n"

/-- The theme of code macros. -/
def codeTheme : String := "RDark"

/-- The two nodes that become attachment macros. -/
inductive ReferenceKind
  | image
  | link
  deriving DecidableEq, Repr

/-- A macro parameter. -/
def parameter (name value : String) : String :=
  "<ac:parameter ac:name=\"" ++ name ++ "\">" ++ escape value ++ "</ac:parameter>"

/-- The reference to the page that owns an attachment. -/
def pageReference (title : String) : String :=
  "<ri:page ri:content-title=\"" ++ escape title ++ "\"/>"

/-- The part of an attachment macro in front of its children. -/
def attachmentStart (kind : ReferenceKind) (filename : String) (page : Option String) : String :=
  let body := "<ri:attachment ri:filename=\"" ++ escape filename ++ "\">" ++
    (page.map pageReference).getD ""
  match kind with
  | .image => "<ac:image>" ++ body
  | .link => "<ac:link>" ++ body ++ "</ri:attachment><ac:plain-text-link-body><![CDATA["

/-- The part of an attachment macro after its children. -/
def attachmentEnd : ReferenceKind → String
  | .image => "</ri:attachment></ac:image>"
  | .link => "]]></ac:plain-text-link-body></ac:link>"

/-- Cuts each section terminator in a text across two CDATA sections. -/
def cdataChars : List Char → List Char
  | ']' :: ']' :: '>' :: r => "]]]]><![CDATA[>".toList ++ cdataChars r
  | c :: r => c :: cdataChars r
  | [] => []

/-- Literal text inside an open CDATA section. -/
def cdata (s : String) : String :=
  String.ofList (cdataChars s.toList)

/-- A code macro with line numbers. -/
def codeMacro (language content : String) : String :=
  "<ac:structured-macro ac:name=\"code\">" ++
    parameter "linenumbers" "true" ++ parameter "theme" codeTheme ++
    parameter "language" language ++
    "<ac:plain-text-body><![CDATA[" ++ cdata content ++ "]]></ac:plain-text-body>" ++
    "</ac:structured-macro>"

/-- The part of a tip macro in front of its body. -/
def tipStart (title : String) : String :=
  "<ac:structured-macro ac:name=\"tip\">" ++ parameter "title" title ++ "<ac:rich-text-body>"

/-- The part of a tip macro after its body. -/
def tipEnd : String :=
  "</ac:rich-text-body></ac:structured-macro>"

end WikiPress.Storage
