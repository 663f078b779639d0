import WikiPress.Proofs.Storage.WellFormed
import WikiPress.Proofs.Xml.Escaped

/-!
# WikiPress.Proofs.Storage.CodeBlock

The content of code blocks, read back.

Design points:

* Two readers say what a code block may have become: `readCodeMacro` takes a macro apart
  through its parameters and the sections of its body, `readPreformatted` takes an element
  whose text has entities. Neither knows anything of the writer but the names of elements.
* Both writers put a code block off until it ends, so its events add nothing but one text at
  the end (`run_codeMacro`, `run_preformatted`). That the right state is in front of the
  block, wherever it stands, is what `Follows.run` says of streams with positions.
-/

namespace WikiPress.Storage

open WikiPress.Markup
open WikiPress.Xml (behind behind_append readPlainElement readPlainElement_map_cdataChars
  readBetween readBetween_escapeChars escape)

/-! ## Reading -/

/-- The value of a macro parameter, and what is behind the parameter. -/
def readParameter (name : String) (cs : List Char) : Option (List Char × List Char) :=
  readBetween ("<ac:parameter ac:name=\"" ++ name ++ "\">") "</ac:parameter>" cs

/-- The language and the content of a code macro, and what is behind the macro. -/
def readCodeMacro (cs : List Char) : Option ((List Char × List Char) × List Char) := do
  let cs ← behind "<ac:structured-macro ac:name=\"code\">".toList cs
  let (_, cs) ← readParameter "linenumbers" cs
  let (_, cs) ← readParameter "theme" cs
  let (language, cs) ← readParameter "language" cs
  let (content, cs) ← readPlainElement "ac:plain-text-body" cs
  let cs ← behind "</ac:structured-macro>".toList cs
  some ((language, content), cs)

/-- The text of a preformatted code element, whatever its attributes are, and what is behind
the element. -/
def readPreformatted (cs : List Char) : Option (List Char × List Char) := do
  let cs ← behind "<pre><code".toList cs
  let (content, cs) ← readBetween ">" "</code>" (cs.dropWhile (· ≠ '>'))
  let cs ← behind "</pre>".toList cs
  some (content, cs)

theorem readParameter_parameter (name value : String) (rest : List Char) :
    readParameter name ((parameter name value).toList ++ rest) = some (value.toList, rest) := by
  have hstop : ∃ c ∈ Xml.markupChars, "</ac:parameter>".toList.head? = some c :=
    ⟨'<', by decide, by decide⟩
  have hread := readBetween_escapeChars ("<ac:parameter ac:name=\"" ++ name ++ "\">")
    value.toList rest hstop
  rw [← Xml.toList_escape] at hread
  exact (congrArg (readParameter name) (Xml.toList_append_three _ _ _ rest)).trans hread

/-- The body of a code macro is read as its content, whatever brackets that ends in. -/
theorem readPlainElement_cdata (name content : String) (rest : List Char) :
    readPlainElement name (("<" ++ name ++ ">").toList ++
        (Xml.sectionStart ++ ((cdata content).toList ++
          (Xml.terminator ++ (("</" ++ name ++ ">").toList ++ rest))))) =
      some (content.toList, rest) := by
  have hwhole : ¬ Xml.Severed [content.toList] := by
    rw [Xml.severed_cons, List.flatten_nil, Xml.straddles_iff]
    simpa using Xml.not_severed_nil
  have hread := (readPlainElement_map_cdataChars name [content.toList] rest).2 hwhole
  simpa [cdata] using hread

/-- A code macro is read as what it was written for. -/
theorem readCodeMacro_codeMacro (language content : String) (rest : List Char) :
    readCodeMacro ((codeMacro language content).toList ++ rest) =
      some ((language.toList, content.toList), rest) := by
  have hopen : "<ac:plain-text-body><![CDATA[".toList =
      ("<" ++ "ac:plain-text-body" ++ ">").toList ++ Xml.sectionStart := by decide
  have hclose : "]]></ac:plain-text-body>".toList =
      Xml.terminator ++ ("</" ++ "ac:plain-text-body" ++ ">").toList := by decide
  have hparts : ∀ a b c d e f g h : String, (a ++ b ++ c ++ d ++ e ++ f ++ g ++ h).toList ++ rest =
      a.toList ++ (b.toList ++ (c.toList ++ (d.toList ++ (e.toList ++ (f.toList ++ (g.toList ++
        (h.toList ++ rest))))))) := by
    intro a b c d e f g h
    simp only [String.toList_append, List.append_assoc]
  refine (congrArg readCodeMacro (hparts _ _ _ _ _ _ _ _)).trans ?_
  simp only [readCodeMacro, hopen, hclose, List.append_assoc, behind_append,
    readParameter_parameter, readPlainElement_cdata, Option.bind_eq_bind, Option.bind_some]

theorem readPreformatted_attributes {attributes : List Char} (h : '>' ∉ attributes)
    (content : String) (rest : List Char) :
    readPreformatted ("<pre><code".toList ++ (attributes ++ ('>' :: ((escape content).toList ++
        ("</code>".toList ++ ("</pre>".toList ++ rest)))))) = some (content.toList, rest) := by
  obtain ⟨-, hdrop⟩ := Xml.span_of_not_mem h
    ((escape content).toList ++ ("</code>".toList ++ ("</pre>".toList ++ rest)))
  have hstop : ∃ c ∈ Xml.markupChars, "</code>".toList.head? = some c :=
    ⟨'<', by decide, by decide⟩
  have hread := readBetween_escapeChars ">" content.toList ("</pre>".toList ++ rest) hstop
  rw [← Xml.toList_escape] at hread
  have hfront : ">".toList = ['>'] := by decide
  rw [hfront, List.singleton_append] at hread
  rw [readPreformatted, behind_append]
  simp only [Option.bind_eq_bind, Option.bind_some, hdrop, hread, behind_append]

/-- A finished code block of the XHTML writer is read as its text. -/
theorem readPreformatted_write (code : Xhtml.PendingCode) (rest : List Char) :
    readPreformatted (code.write.toList ++ rest) = some (code.text.toList, rest) := by
  have hclose : "</code></pre>".toList = "</code>".toList ++ "</pre>".toList := by decide
  cases hlanguage : code.language with
  | none =>
      have hwrite : code.write = "<pre><code>" ++ escape code.text ++ "</code></pre>" := by
        simp only [Xhtml.PendingCode.write, hlanguage]
      have hopen : "<pre><code>".toList = "<pre><code".toList ++ ([] ++ ['>']) := by decide
      have hnone : '>' ∉ ([] : List Char) := List.not_mem_nil
      have hread := readPreformatted_attributes hnone code.text rest
      rw [hwrite]
      simpa only [String.toList_append, hopen, hclose, List.append_assoc, List.singleton_append,
        List.cons_append, List.nil_append] using hread
  | some language =>
      have hwrite : code.write = "<pre><code class=\"language-" ++ escape language ++ "\">" ++
          escape code.text ++ "</code></pre>" := by
        simp only [Xhtml.PendingCode.write, hlanguage]
      have hopen : "<pre><code class=\"language-".toList =
          "<pre><code".toList ++ " class=\"language-".toList := by decide
      have hquote : "\">".toList = ['"'] ++ ['>'] := by decide
      have hnot : '>' ∉ " class=\"language-".toList ++ ((escape language).toList ++ ['"']) := by
        have hfront : '>' ∉ " class=\"language-".toList := by decide
        have hinner : '>' ∉ (escape language).toList := by
          rw [Xml.toList_escape]
          exact Xml.not_mem_escapeChars (by decide) _
        simp only [List.mem_append, not_or]
        exact ⟨hfront, hinner, by decide⟩
      have hread := readPreformatted_attributes hnot code.text rest
      rw [hwrite]
      simpa only [String.toList_append, hopen, hquote, hclose, List.append_assoc,
        List.cons_append, List.nil_append] using hread

/-! ## Writing -/

variable {style : Style} {s : State}

/-- Texts that add nothing leave the text behind them alone. -/
theorem join_blanks (texts : List String) (last : String) :
    String.join ("" :: (texts.map (fun _ => "") ++ [last])) = last := by
  induction texts with
  | nil => simp [String.join]
  | cons t texts ih => simpa [String.join_cons] using ih

/-- The text of a code macro is collected. -/
theorem run_collected (style : Style) (context : Context) {code : PendingCode}
    (hc : s.code = some code) (texts : List String) :
    run style context s (texts.map .text) =
      ({ s with code := some { code with text := code.text ++ String.join texts } },
        texts.map fun _ => "") := by
  induction texts generalizing s code with
  | nil => simp [String.join, ← hc]
  | cons t texts ih =>
      have hstep : step style context s (.text t) =
          ({ s with code := some { code with text := code.text ++ t } }, "") := by
        simp only [step, hc, codeStep]
      rw [List.map_cons, run_cons, hstep, ih rfl, String.join_cons, ← String.append_assoc]
      rfl

/-- A code block in another language than that of diagrams is written as one macro, when it
ends, and leaves nothing behind. -/
theorem run_codeMacro (context : Context) {info : Option String} (hc : s.code = none)
    (hlanguage : languageOf info ≠ style.diagramLanguage) (texts : List String) :
    run style context s (enclose (.codeBlock info) (texts.map .text)) =
      (s, "" :: (texts.map (fun _ => "") ++
        [codeMacro (languageOf info) (String.join texts)])) := by
  have hsame : { s with code := none } = s := by rw [← hc]
  rw [enclose, List.cons_append, run_cons, step_opening_code context hc hlanguage, run_append,
    run_collected style context rfl, run_cons]
  simp only [step, codeStep, Tag.closing, run_nil, String.empty_append, hsame]

/-- The state with some code block under the XHTML writer. -/
def State.withHtmlCode (s : State) (code : Option Xhtml.PendingCode) : State :=
  { s with html := { s.html with code } }

/-- The text of a code block of the XHTML writer is collected there. -/
theorem run_delegated_texts (style : Style) (context : Context) (hc : s.code = none)
    (hm : s.macroBody = none) (code : Xhtml.PendingCode) (texts : List String) :
    run style context (s.withHtmlCode (some code)) (texts.map .text) =
      (s.withHtmlCode (some { code with text := code.text ++ String.join texts }),
        texts.map fun _ => "") := by
  induction texts generalizing code with
  | nil => simp [String.join]
  | cons t texts ih =>
      have hstep : step style context (s.withHtmlCode (some code)) (.text t) =
          (s.withHtmlCode (some { code with text := code.text ++ t }), "") := by
        have hc' : (s.withHtmlCode (some code)).code = none := hc
        have hm' : (s.withHtmlCode (some code)).macroBody = none := hm
        rw [step_leaf hc' rfl, leaf, hm']
        rfl
      rw [List.map_cons, run_cons, hstep, ih, String.join_cons, ← String.append_assoc]
      rfl

/-- A code block in the language of diagrams is written as one element, when it ends. -/
theorem run_preformatted (context : Context) {info : Option String} (hc : s.code = none)
    (hm : s.macroBody = none) (himage : s.html.image = none)
    (hlanguage : languageOf info = style.diagramLanguage) (texts : List String) :
    run style context s (enclose (.codeBlock info) (texts.map .text)) =
      (s.withHtmlCode none, "" :: (texts.map (fun _ => "") ++
        [Xhtml.PendingCode.write ⟨Xhtml.codeLanguage info, String.join texts⟩])) := by
  have hopen : step style context s (.opening (.codeBlock info)) =
      (s.withHtmlCode (some ⟨Xhtml.codeLanguage info, ""⟩), "") := by
    have hstep : step style context s (.opening (.codeBlock info)) =
        openTag style context s (.codeBlock info) := by
      simp only [step, hc]
    have hdelegate : openTag style context s (.codeBlock info) =
        delegate style s (.opening (.codeBlock info)) := if_pos hlanguage
    rw [hstep, hdelegate]
    simp only [delegate, Xhtml.step, himage, Xhtml.openTag, State.withHtmlCode]
  have hclose : ∀ code : Xhtml.PendingCode,
      step style context (s.withHtmlCode (some code)) (.closing .codeBlock) =
        (s.withHtmlCode none, code.write) := by
    intro code
    simp only [State.withHtmlCode, step, hc, closeTag, delegate, Xhtml.step, himage,
      Xhtml.closeTag]
  rw [enclose, List.cons_append, run_cons, hopen, run_append,
    run_delegated_texts style context hc hm, run_cons, Tag.closing, hclose]
  simp only [run_nil, String.empty_append]

/-! ## Code blocks of a document -/

/-- In front of a code block both writers are in markup, with no code and no image open. -/
theorem ready_of_wellShaped (style : Style) (context : Context) {info : Option String}
    {before inside after : List Event}
    (hshape : WellShaped (before ++ (enclose (.codeBlock info) inside ++ after))) :
    let s := (run style context .start before).1
    s.code = none ∧ s.macroBody = none ∧ s.html.image = none := by
  intro s
  obtain ⟨p, hbefore, hrest, -⟩ := hshape.split
  have hfollows : Follows style p s := (follows_start style).run context hbefore
  rw [enclose, List.append_assoc, List.cons_append, Position.run_cons] at hrest
  obtain ⟨q, hstep, -⟩ := Option.bind_eq_some_iff.1 hrest
  obtain ⟨content, hin, -⟩ := Position.step_opening hstep
  -- a code block is a block, so it stands in no running text
  obtain ⟨hflow, -⟩ := Content.inside_block hin rfl (by simp)
  have hmarkup : modeInside style.attachmentsFolder p.tags = .markup := by
    by_contra hmode
    have hinline := inline_of_modeInside hfollows.linked hmode
    rw [hflow] at hinline
    cases hinline
  have hcollecting : collecting style p.opened = false :=
    not_collecting_of_ne hfollows.linked (by rw [hflow]; simp)
  refine ⟨hfollows.code_eq_none hcollecting, ?_, hfollows.no_image (by rw [hmarkup]; simp)⟩
  rw [macroBody_of_frames hfollows.frames, hmarkup]
  rfl

/-- **The content of code blocks is kept.** Wherever a code block stands in a stream with
the shape of a document, whatever its info string is and however its text comes in pieces:
behind what is written in front of the block stands one code macro, read as the first word
of the info string and the text in one, or, if that word is the language of diagrams, one
preformatted element, read as the text in one. Behind it stands what is written for the
events behind the block. -/
theorem read_codeBlock (style : Style) (context : Context) (info : Option String)
    (texts : List String) (before after : List Event)
    (hshape : WellShaped (before ++ (enclose (.codeBlock info) (texts.map .text) ++ after))) :
    let block := enclose (.codeBlock info) (texts.map .text)
    let body := (write style context (before ++ (block ++ after))).body
    let front := written style context before
    let back :=
      String.join (run style context (run style context .start (before ++ block)).1 after).2
    let content := (String.join texts).toList
    (languageOf info ≠ style.diagramLanguage →
        (behind front.toList body.toList).bind readCodeMacro =
          some (((languageOf info).toList, content), back.toList)) ∧
      (languageOf info = style.diagramLanguage →
        (behind front.toList body.toList).bind readPreformatted = some (content, back.toList)) := by
  intro block body front back content
  obtain ⟨hc, hm, himage⟩ := ready_of_wellShaped style context hshape
  have hbody : body.toList = front.toList ++
      ((String.join (run style context (run style context .start before).1 block).2).toList ++
        back.toList) := by
    have hwritten : body = front ++
        (String.join (run style context (run style context .start before).1 block).2 ++ back) := by
      show written style context (before ++ (block ++ after)) = _
      rw [← List.append_assoc, written_append_run, written_append_run, String.append_assoc]
    rw [hwritten, String.toList_append, String.toList_append]
  rw [hbody, behind_append, Option.bind_some]
  constructor
  · intro hlanguage
    rw [run_codeMacro context hc hlanguage, join_blanks]
    exact readCodeMacro_codeMacro _ _ _
  · intro hlanguage
    rw [run_preformatted context hc hm himage hlanguage, join_blanks]
    exact readPreformatted_write _ _

/-- A block in a quote behind an image, whose text comes in three pieces and ends in the
brackets that the section of a macro ends in. -/
theorem read_codeBlock_in_quote :
    let block := enclose (.codeBlock (some "r&d title")) (["a]]", "]>&lt;", "]]"].map .text)
    let before : List Event := .opening .blockQuote ::
      enclose .paragraph (enclose (.image "a.png" "") [.inlineHtml "<b>"])
    let body := (write {} {} (before ++ (block ++ [.closing .blockQuote]))).body
    (behind (written {} {} before).toList body.toList).bind readCodeMacro =
        some (("r&d".toList, "a]]]>&lt;]]".toList), tipEnd.toList) := by
  intro block before body
  have hlanguage : languageOf (some "r&d title") = "r&d" := by decide
  have hread := (read_codeBlock {} {} (some "r&d title") ["a]]", "]>&lt;", "]]"] before
    [.closing .blockQuote] (by decide)).1 (by decide)
  rw [hlanguage] at hread
  exact hread

end WikiPress.Storage
