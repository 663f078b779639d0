import WikiPress.Proofs.Storage.Concatenation
import WikiPress.Proofs.Storage.WellFormed
import WikiPress.Proofs.Xhtml.Tables

/-!
# WikiPress.Proofs.Storage.Tables

Tables of a page are laid out by column.

Design points:

* Where blocks may stand, no image, link or code is open (`ready_of_flow`). So a writer comes to a
  table knowing nothing but its place in the table in front, in the storage format as in XHTML.
* What is in a cell is written as it is in a paragraph, and as it is alone, because a writer there
  agrees with one at its start.
* Behind a table the writer differs from one that has not met it in its place in a table only, and
  where blocks may stand that place is nothing to it.
-/

namespace WikiPress.Storage

open WikiPress.Markup
open WikiPress.Xhtml (Grid TablePosition LaysOut Adds inParagraph)

/-- What a stream adds to a body, alone. -/
def bodyText (style : Style) (context : Context) (es : List Event) : String :=
  String.join (run style context .start es).2

variable {style : Style} {context : Context} {p q : Position} {s s' : State}
  {table table' : TablePosition}

/-- The writer has nothing open or pending but its place in a table. -/
structure Ready (table : TablePosition) (s : State) : Prop where
  frames : s.frames = []
  code : s.code = none
  html : s.html = ⟨table, none, none⟩

theorem framesInside_of_flow {folder : String} {tags : List Tag}
    (h : ∀ tag ∈ tags, tag.content = .flow) : framesInside folder tags = [] := by
  induction tags with
  | nil => rfl
  | cons tag tags ih =>
      obtain ⟨htag, htags⟩ := List.forall_mem_cons.1 h
      have hkind : referenceKind tag = none := by
        cases tag <;> first | rfl | cases htag
      rw [framesInside_cons_of_none hkind, ih htags]

/-- Where blocks may stand, the writer is ready. -/
theorem ready_of_flow (hfollows : Follows style p s) (hcode : HtmlCode style p s)
    (hflow : p.content = .flow) : Ready s.html.table s := by
  have htags := Xhtml.content_of_mem_tags hfollows.linked hflow
  have hhtml : s.html.code = none := by
    cases hc : s.html.code with
    | none => rfl
    | some code =>
        obtain ⟨info, outer, rest, hopened, -⟩ := hcode (by rw [hc]; rfl)
        have hmem : .codeBlock info ∈ p.tags := by
          rw [Position.tags, hopened]
          exact List.mem_cons_self
        cases htags _ hmem
  have himage : s.html.image = none := by
    cases hi : s.html.image with
    | none => rfl
    | some i =>
        have hinline := hfollows.inline_of_image (by rw [hi]; rfl)
        rw [hflow] at hinline
        cases hinline
  refine ⟨hfollows.frames.trans (framesInside_of_flow htags), ?_, ?_⟩
  · exact hfollows.code_eq_none (not_collecting_of_ne hfollows.linked (by rw [hflow]; simp))
  · exact Xhtml.ready_iff.2 ⟨rfl, himage, hhtml⟩

/-- States that are ready agree where no table is open. -/
theorem Ready.agree {tags : List Tag} (h : Ready table s) (h' : Ready table' s')
    (hout : ¬∃ alignments, .table alignments ∈ tags) : Agree tags s s' := by
  refine ⟨h'.frames.trans h.frames.symm, h'.code.trans h.code.symm, ?_⟩
  rw [h.html, h'.html]
  exact ⟨rfl, rfl, fun hin => absurd hin hout⟩

/-! ## In a cell -/

theorem Ready.follows (h : Ready table s) : Follows style inParagraph s := by
  refine ⟨Xhtml.linked_inParagraph, h.frames, ?_, ?_, ?_⟩
  · rw [h.code]
    rfl
  · rw [h.html]
    rfl
  · intro b hb
    cases hb

theorem Ready.htmlCode (h : Ready table s) : HtmlCode style p s := by
  intro hsome
  rw [h.html] at hsome
  cases hsome

theorem run_table {es : List Event} (hes : ∀ e ∈ es, Xhtml.isPart e = false) :
    (run style context s es).1.html.table = s.html.table := by
  induction es generalizing s with
  | nil => rfl
  | cons e es ih =>
      obtain ⟨he, hrest⟩ := List.forall_mem_cons.1 hes
      rw [run_cons, ih hrest]
      rcases keeps_or_passes style context s e with ⟨hkeeps, -⟩ | hpasses
      · rw [show (step style context s e).1.html = s.html from hkeeps.html]
      · rw [show (step style context s e).1.html = _ from hpasses.html]
        exact Xhtml.step_table style.hardLineBreak s.html he

/-- A writer that is ready takes the parts of a table as the XHTML writer does. -/
theorem Ready.step_part (h : Ready table s) {e : Event} (he : Xhtml.isPart e = true) :
    step style context s e = delegate style s e := by
  have hbody : s.macroBody = none := by
    rw [State.macroBody, h.frames]
    rfl
  cases e with
  | opening tag =>
      cases tag <;> first | (cases he; done) | simp [step, h.code, openTag, hbody]
  | closing c =>
      cases c <;> first | (cases he; done) | simp [step, h.code, closeTag, hbody]
  | _ => cases he

/-- The storage writer lays out tables as the XHTML writer does. -/
theorem laysOut (style : Style) (context : Context) :
    LaysOut (run style context) Ready (bodyText style context) where
  nil _ := rfl
  append := run_append style context
  part table e he := by
    intro s hs
    rw [run_cons, hs.step_part he]
    obtain ⟨hpiece, hready⟩ := (Xhtml.laysOut style.hardLineBreak).part table he s.html hs.html
    exact ⟨hpiece, hs.frames, hs.code, hready⟩
  cell table es hes := by
    intro s hs
    have hrun : inParagraph.run es = some inParagraph := hes _
    have hstart : Ready Xhtml.State.start.table .start := ⟨rfl, rfl, rfl⟩
    refine ⟨?_, ?_⟩
    · have hagree : Agree inParagraph.tags .start s := by
        refine hstart.agree hs ?_
        rintro ⟨alignments, hmem⟩
        simp [inParagraph, Position.tags] at hmem
      rw [hagree.run context hstart.follows hrun]
      rfl
    · have hbehind : Follows style inParagraph (run style context s es).1 :=
        hs.follows.run context hrun
      have hcode : HtmlCode style inParagraph (run style context s es).1 :=
        (hs.htmlCode).run context hs.follows hrun
      have himage : (run style context s es).1.html.image = none :=
        hbehind.no_image (by simp [modeInside, tagMode, inParagraph, Position.tags])
      have hhtml : (run style context s es).1.html.code = none := by
        cases hc : (run style context s es).1.html.code with
        | none => rfl
        | some code =>
            obtain ⟨info, outer, rest, hopened, -⟩ := hcode (by rw [hc]; rfl)
            cases hopened
      have htable : (run style context s es).1.html.table = table := by
        rw [run_table (Xhtml.no_part_of_inline hes), hs.html]
      exact ⟨hbehind.frames, hbehind.code_eq_none rfl, Xhtml.ready_iff.2 ⟨htable, himage, hhtml⟩⟩

/-! ## In a document -/

/-- The body of a page with tables among blocks. -/
theorem written_grids (style : Style) (context : Context) {before behind : List Event}
    {gs : List Grid} (hbefore : Position.top.run before = some p) (hbehind : p.run behind = some q)
    (hflow : p.content = .flow) (hcells : ∀ g ∈ gs, g.RunningText) :
    ∃ back, written style context (before ++ behind) = written style context before ++ back ∧
      written style context (before ++ gs.flatMap Grid.events ++ behind) =
        written style context before ++
          String.join (gs.map (Grid.text (bodyText style context))) ++ back := by
  have hfollows : Follows style p (run style context .start before).1 :=
    (follows_start style).run context hbefore
  have hcode : HtmlCode style p (run style context .start before).1 :=
    HtmlCode.run context (p := .top) nofun (follows_start style) hbefore
  have hready := ready_of_flow hfollows hcode hflow
  have htags := Xhtml.content_of_mem_tags hfollows.linked hflow
  refine ⟨_, written_append_run style context before behind, ?_⟩
  rw [List.append_assoc, written_append_run,
    (laysOut style context).run_grids hready hcells, String.append_assoc]
  intro table' s' hs'
  have hagree := hready.agree hs' (Xhtml.no_table_of_flow htags)
  exact hagree.run context hfollows hbehind

/-- **Tables are laid out by column.** Where tables stand in a stream with the shape of a document,
and their cells hold running text, both writers write them as `Grid.text` says, whatever is in the
cells and in front of the tables: a head of one row with header cells, and one body with the other
rows in order, of data cells, where each cell has the style of the alignment its own table gives
for its column. What is in a cell is written as it is alone. In front of the tables and behind them,
everything is written as it is without them. -/
theorem write_grids (style : Style) (context : Context) (hardLineBreak : Bool)
    (before behind : List Event) (gs : List Grid) (hcells : ∀ g ∈ gs, g.RunningText)
    (hshape : WellShaped (before ++ gs.flatMap Grid.events ++ behind)) :
    let body (es : List Event) := (write style context es).body
    let render := Xhtml.render hardLineBreak
    (∃ back, body (before ++ behind) = body before ++ back ∧
        body (before ++ gs.flatMap Grid.events ++ behind) =
          body before ++ String.join (gs.map (Grid.text (bodyText style context))) ++ back) ∧
      ∃ back, render (before ++ behind) = render before ++ back ∧
        render (before ++ gs.flatMap Grid.events ++ behind) =
          render before ++ String.join (gs.map (Grid.text render)) ++ back := by
  intro body render
  cases gs with
  | nil =>
      -- nothing stands between the two stretches
      have hbody := written_append_run style context before behind
      have hrender := Xhtml.render_split hardLineBreak before behind
      simp only [List.flatMap_nil, List.append_nil, List.map_nil, String.join_nil,
        String.append_empty]
      exact ⟨⟨_, hbody, hbody⟩, _, hrender, hrender⟩
  | cons g gs =>
      rw [List.append_assoc] at hshape
      obtain ⟨p, hbefore, hrest, -⟩ := WellShaped.split hshape
      have hflow : p.content = .flow := by
        rw [List.flatMap_cons, List.append_assoc] at hrest
        exact Xhtml.flow_of_grid hrest
      have hgrids : p.run ((g :: gs).flatMap Grid.events) = some p := by
        have hsteady : Steady .flow ((g :: gs).flatMap Grid.events) :=
          Steady.flatMap fun g' hg => Grid.steady (hcells g' hg)
        rw [show p = ⟨.flow, p.opened⟩ from by rw [← hflow]]
        exact hsteady p.opened
      have hbehind : p.run behind = some .top := by
        rwa [Position.run_append, hgrids, Option.bind_some] at hrest
      exact ⟨written_grids style context hbefore hbehind hflow hcells,
        Xhtml.render_grids hardLineBreak hbefore hbehind hflow hcells⟩

/-- In a quote, a table with two alignments and a row that is longer, and behind it one without
alignments. The cells hold an attached image and link, an image from elsewhere, and code. -/
theorem write_grids_quoted :
    let wide := Grid.ofInlines [.center, .unset]
      [[.text "a"], [.image "b.png" "" [.text "b"]]]
      [[[.code "<"], [.link .inline "c.pdf" "" [.text "c"]], []], [[.text "d"]]]
    let narrow := Grid.ofInlines [] [[.image "https://example.com/e.png" "" [.text "e"]]] []
    let before := [Event.opening .blockQuote]
    let behind := [Event.closing .blockQuote]
    let gs := [wide, narrow]
    let body (es : List Event) := (write {} {} es).body
    let render := Xhtml.render false
    (∀ g ∈ gs, g.RunningText) ∧ WellShaped (before ++ gs.flatMap Grid.events ++ behind) ∧
      (∃ back, body (before ++ behind) = body before ++ back ∧
        body (before ++ gs.flatMap Grid.events ++ behind) =
          body before ++ String.join (gs.map (Grid.text (bodyText {} {}))) ++ back) ∧
      (∃ back, render (before ++ behind) = render before ++ back ∧
        render (before ++ gs.flatMap Grid.events ++ behind) =
          render before ++ String.join (gs.map (Grid.text render)) ++ back) ∧
      wide.text render = "<table><thead><tr><th style=\"text-align: center\">a</th>" ++
        "<th><img src=\"b.png\" alt=\"b\" /></th></tr></thead><tbody>" ++
        "<tr><td style=\"text-align: center\"><code>&lt;</code></td>" ++
        "<td><a href=\"c.pdf\">c</a></td><td></td></tr>" ++
        "<tr><td style=\"text-align: center\">d</td></tr></tbody></table>" := by
  intro wide narrow before behind gs body render
  have hcells : ∀ g ∈ gs, g.RunningText := by
    intro g hg
    rcases List.mem_cons.1 hg with rfl | hg
    · exact Grid.runningText_ofInlines _ _ _
    · obtain rfl := List.mem_singleton.1 hg
      exact Grid.runningText_ofInlines _ _ _
  have hshape : WellShaped (before ++ gs.flatMap Grid.events ++ behind) := by decide
  obtain ⟨hbody, hrender⟩ := write_grids {} {} false before behind gs hcells hshape
  exact ⟨hcells, hshape, hbody, hrender, by decide +kernel⟩

end WikiPress.Storage
