import WikiPress.Attachment
import WikiPress.Storage.Macro
import WikiPress.Xhtml.Writer

/-!
# WikiPress.Storage.Writer

Storage format from an event stream: the nodes the wiki represents with macros are
rewritten, and everything else is left to the XHTML writer.

Design points:

* The writer is a state machine over events like the XHTML writer it drives; `step`
  yields the next state and the text the event adds.
* Every open image or link has a `Frame`. An image or link inside an attachment macro
  is suppressed, since the macro's body is plain.
* A code block is collected and written as a macro when it ends, unless its language
  is the diagram language, which the XHTML writer keeps.
* The attachments met are kept in the state, latest first.
-/

namespace WikiPress.Storage

open WikiPress.Markup
open WikiPress.Attachment (Reference)

/-- The settings pages are written under. -/
structure Style where
  attachmentsFolder : String := Attachment.defaultFolder
  hardLineBreak : Bool := false
  /-- The language of code blocks left as they are. -/
  diagramLanguage : String := "mermaid"
  /-- The title of the tip a block quote becomes. -/
  tipTitle : String := "提示"
  deriving DecidableEq, Repr

/-- Where a document stands in the page tree. -/
structure Context where
  /-- The title of the page that owns the files beside a document that is no index. -/
  parentTitle : String := ""
  /-- Whether the document is its directory's index. -/
  isIndex : Bool := false
  deriving DecidableEq, Repr

/-- A written page. -/
structure Page where
  body : String
  /-- The attachments the body refers to, in document order. -/
  attachments : List Reference
  deriving DecidableEq, Repr

/-- An open image or link. -/
inductive Frame
  /-- Rewritten as an attachment macro. -/
  | attachment (kind : ReferenceKind)
  /-- Left to the XHTML writer. -/
  | delegated (kind : ReferenceKind)
  /-- Inside an attachment macro, without tags of its own. -/
  | suppressed
  deriving DecidableEq, Repr

/-- A code block whose text is being collected. -/
structure PendingCode where
  language : String
  text : String
  deriving DecidableEq, Repr

/-- What the writer has to remember between events. -/
structure State where
  html : Xhtml.State := .start
  /-- The open images and links, innermost first. -/
  frames : List Frame := []
  code : Option PendingCode := none
  /-- The attachments met, latest first. -/
  attachments : List Reference := []
  deriving DecidableEq, Repr

/-- The state before the first event. -/
def State.start : State := {}

/-- The kind of the attachment macro an event is inside of, if any. -/
def State.macroBody (s : State) : Option ReferenceKind :=
  s.frames.findSome? fun
    | .attachment kind => some kind
    | _ => none

/-- Whether an image left to the XHTML writer is open. -/
def State.inDelegatedImage (s : State) : Bool :=
  s.frames.contains (.delegated .image)

/-- Hands an event on to the XHTML writer. -/
def delegate (style : Style) (s : State) (e : Event) : State × String :=
  let (html, piece) := Xhtml.step style.hardLineBreak s.html e
  ({ s with html }, piece)

/-- The title of the page that owns an attachment, where the macro has to name it: the
files beside an index document are its own. -/
def ownerTitle (context : Context) : Attachment.Directory → Option String
  | .current => if context.isIndex then none else some context.parentTitle
  | directory => directory.pageTitle

/-- The attachment an image or link names, where one may be opened: never inside the
alternative text of an image. -/
def State.referenceAt (style : Style) (s : State) (destination : Option String) :
    Option Reference :=
  if s.inDelegatedImage then none
  else destination.bind (Attachment.reference style.attachmentsFolder)

/-- Opens an image or link; a destination is absent when it names no attachment by the
way it was written. -/
def openReference (style : Style) (context : Context) (s : State) (tag : Tag)
    (kind : ReferenceKind) (destination : Option String) : State × String :=
  if s.macroBody.isSome then ({ s with frames := .suppressed :: s.frames }, "")
  else
    match s.referenceAt style destination with
    | some r =>
        ({ s with frames := .attachment kind :: s.frames, attachments := r :: s.attachments },
          attachmentStart kind r.filename (ownerTitle context r.directory))
    | none =>
        delegate style { s with frames := .delegated kind :: s.frames } (.opening tag)

/-- Closes an image or link. -/
def closeReference (style : Style) (s : State) (tag : Closing) : State × String :=
  match s.frames with
  | .attachment kind :: frames => ({ s with frames }, attachmentEnd kind)
  | .suppressed :: frames => ({ s with frames }, "")
  | .delegated _ :: frames => delegate style { s with frames } (.closing tag)
  | [] => delegate style s (.closing tag)

/-- The opening of a container. -/
def openTag (style : Style) (context : Context) (s : State) (tag : Tag) : State × String :=
  match tag with
  | .image destination _ => openReference style context s tag .image (some destination)
  | .link kind destination _ =>
      openReference style context s tag .link (if kind = .email then none else some destination)
  | .codeBlock info =>
      let language := (info.map Text.firstWord).getD ""
      if language = style.diagramLanguage then delegate style s (.opening tag)
      else ({ s with code := some ⟨language, ""⟩ }, "")
  | .blockQuote => (s, tipStart style.tipTitle)
  | _ => if s.macroBody.isSome then (s, "") else delegate style s (.opening tag)

/-- The closing of a container. -/
def closeTag (style : Style) (s : State) (tag : Closing) : State × String :=
  match tag with
  | .image | .link => closeReference style s tag
  | .blockQuote => (s, tipEnd)
  | .codeBlock => delegate style s (.closing tag)
  | _ => if s.macroBody.isSome then (s, "") else delegate style s (.closing tag)

/-- What an event adds to the plain text body of an attachment link. -/
def linkText : Event → String
  | .text t | .code t | .inlineHtml t => cdata t
  | .softBreak | .hardBreak => "\n"
  | _ => ""

/-- An event that neither opens nor closes. -/
def leaf (style : Style) (s : State) (e : Event) : State × String :=
  match s.macroBody with
  | some .link => (s, linkText e)
  | some .image => (s, "")
  | none => delegate style s e

/-- An event inside a code block that becomes a macro. -/
def codeStep (s : State) (code : PendingCode) : Event → State × String
  | .text t => ({ s with code := some { code with text := code.text ++ t } }, "")
  | .closing .codeBlock => ({ s with code := none }, codeMacro code.language code.text)
  | _ => (s, "")

/-- One event: the next state and the text the event adds to the body. -/
def step (style : Style) (context : Context) (s : State) (e : Event) : State × String :=
  match s.code with
  | some code => codeStep s code e
  | none =>
      match e with
      | .opening tag => openTag style context s tag
      | .closing tag => closeTag style s tag
      | e => leaf style s e

/-- The text each event adds, and the state after the last. -/
def run (style : Style) (context : Context) : State → List Event → State × List String
  | s, [] => (s, [])
  | s, e :: es =>
      let (s', piece) := step style context s e
      let (t, pieces) := run style context s' es
      (t, piece :: pieces)

/-- The page of an event stream. -/
def write (style : Style) (context : Context) (es : List Event) : Page :=
  let (s, pieces) := run style context .start es
  ⟨tableOfContents ++ String.join pieces, s.attachments.reverse⟩

@[simp] theorem run_nil (style : Style) (context : Context) (s : State) :
    run style context s [] = (s, []) := rfl

theorem run_cons (style : Style) (context : Context) (s : State) (e : Event) (es : List Event) :
    run style context s (e :: es) =
      ((run style context (step style context s e).1 es).1,
        (step style context s e).2 :: (run style context (step style context s e).1 es).2) := rfl

theorem run_append (style : Style) (context : Context) (s : State) (as bs : List Event) :
    run style context s (as ++ bs) =
      ((run style context (run style context s as).1 bs).1,
        (run style context s as).2 ++ (run style context (run style context s as).1 bs).2) := by
  induction as generalizing s with
  | nil => rfl
  | cons e es ih => simp [run_cons, ih]

end WikiPress.Storage
