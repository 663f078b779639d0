import WikiPress.Proofs.Markup.Trees
import WikiPress.Proofs.Xhtml.Agreement

/-!
# WikiPress.Proofs.Xhtml.Tables

How tables are laid out, by any writer that hands their parts on to the XHTML writer.

Design points:

* A `Grid` is a table with the events of its cells, and `Grid.text` its layout, for a given way to
  write what is in a cell.
* Between the events of a cell and the next part of the table, a writer is in one of few states:
  all it knows is its place in the table. `Adds` says what a stretch does to such states. Stretches
  are put together by `LaysOut.append`, from the parts and the contents of the cells up to a table.
* A cell holds running text, which has no part in a table, so the place stays as it is
  (`no_part_of_inline`). The column is left over from the row in front, and the rest of the place
  from the table in front; the layout does not depend on either.
-/

namespace WikiPress.Xhtml

open WikiPress.Markup

/-! ## Tables and their layout -/

/-- A table: the events of each cell, by rows. -/
structure Grid where
  alignments : List ColumnAlignment
  head : List (List Event)
  rows : List (List (List Event))
  deriving DecidableEq, Repr

namespace Grid

/-- The events of the cells of a row. -/
def cellEvents (cells : List (List Event)) : List Event := cells.flatMap (enclose .tableCell)

/-- The events of a table. -/
def events (g : Grid) : List Event :=
  enclose (.table g.alignments)
    (enclose .tableHead (cellEvents g.head) ++
      g.rows.flatMap fun row => enclose .tableRow (cellEvents row))

/-- What is in the cells is running text. -/
def RunningText (g : Grid) : Prop :=
  (∀ cell ∈ g.head, Steady .inline cell) ∧ ∀ row ∈ g.rows, ∀ cell ∈ row, Steady .inline cell

/-- The table of a block. -/
def ofInlines (alignments : List ColumnAlignment) (head : List (List Inline))
    (rows : List (List (List Inline))) : Grid :=
  ⟨alignments, head.map inlineEvents, rows.map (·.map inlineEvents)⟩

/-- The tables of documents are such tables. -/
theorem events_ofInlines (alignments : List ColumnAlignment) (head : List (List Inline))
    (rows : List (List (List Inline))) :
    (ofInlines alignments head rows).events = (Block.table alignments head rows).events := by
  simp only [ofInlines, events, cellEvents, Block.events, Markup.cellEvents, List.flatMap_map]

theorem runningText_ofInlines (alignments : List ColumnAlignment) (head : List (List Inline))
    (rows : List (List (List Inline))) : (ofInlines alignments head rows).RunningText := by
  have hcells : ∀ cells : List (List Inline), ∀ cell ∈ cells.map inlineEvents,
      Steady .inline cell := by
    intro cells cell hcell
    obtain ⟨inlines, -, rfl⟩ := List.mem_map.1 hcell
    exact steady_inlines inlines rfl
  refine ⟨hcells head, fun row hrow => ?_⟩
  obtain ⟨cells, -, rfl⟩ := List.mem_map.1 hrow
  exact hcells cells

/-- A table may stand where blocks may. -/
theorem steady {g : Grid} (h : g.RunningText) : Steady .flow g.events :=
  steady_table (f := id) g.alignments h.1 h.2

/-- A cell of a column, under its alignment. -/
def cellText (content : List Event → String) (alignments : List ColumnAlignment) (name : String)
    (column : Nat) (cell : List Event) : String :=
  "<" ++ name ++ alignmentStyle (alignments[column]?.getD .unset) ++ ">" ++ content cell ++
    "</" ++ name ++ ">"

/-- The cells of a row, from some column on. -/
def cellsText (content : List Event → String) (alignments : List ColumnAlignment) (name : String)
    (first : Nat) (cells : List (List Event)) : String :=
  String.join (cells.mapIdx fun j => cellText content alignments name (first + j))

/-- A row of the body. -/
def rowText (content : List Event → String) (alignments : List ColumnAlignment)
    (cells : List (List Event)) : String :=
  "<tr>" ++ cellsText content alignments "td" 0 cells ++ "</tr>"

/-- A table: a head of one row, and a body with the other rows. -/
def text (content : List Event → String) (g : Grid) : String :=
  "<table>" ++ "<thead><tr>" ++ cellsText content g.alignments "th" 0 g.head ++
    "</tr></thead><tbody>" ++ String.join (g.rows.map (rowText content g.alignments)) ++
    "</tbody></table>"

end Grid

/-- Whether an event opens or closes a table or a part of one. -/
def isPart : Event → Bool
  | .opening (.table _) | .closing .table => true
  | e => readsTable e

/-! ## Writers that lay out tables -/

/-- What a writer makes of a stream from a state. -/
abbrev Runs (σ : Type) := σ → List Event → σ × List String

/-- From all states that are ready at a place of a table, a stretch adds a text and leads to states
that are ready at another place. -/
def Adds {σ : Type} (run : Runs σ) (ready : TablePosition → σ → Prop) (table : TablePosition)
    (es : List Event) (text : String) (table' : TablePosition) : Prop :=
  ∀ s, ready table s → String.join (run s es).2 = text ∧ ready table' (run s es).1

/-- A writer takes the parts of tables as the XHTML writer does, and between them its place in the
table is nothing to what is in a cell. -/
structure LaysOut {σ : Type} (run : Runs σ) (ready : TablePosition → σ → Prop)
    (content : List Event → String) : Prop where
  nil : ∀ s, run s [] = (s, [])
  append : ∀ s as bs, run s (as ++ bs) =
    ((run (run s as).1 bs).1, (run s as).2 ++ (run (run s as).1 bs).2)
  part : ∀ table {e}, isPart e = true →
    Adds run ready table [e] (step false ⟨table, none, none⟩ e).2
      (step false ⟨table, none, none⟩ e).1.table
  cell : ∀ table {es}, Steady .inline es → Adds run ready table es (content es) table

section Layout

variable {σ : Type} {run : Runs σ} {ready : TablePosition → σ → Prop}
  {content : List Event → String} {table table' table'' : TablePosition} {as bs es : List Event}
  {first second : String}

theorem Adds.append (h : LaysOut run ready content) (has : Adds run ready table as first table')
    (hbs : Adds run ready table' bs second table'') :
    Adds run ready table (as ++ bs) (first ++ second) table'' := by
  intro s hs
  obtain ⟨hfirst, hmid⟩ := has s hs
  obtain ⟨hsecond, hend⟩ := hbs _ hmid
  rw [h.append, String.join_append, hfirst, hsecond]
  exact ⟨rfl, hend⟩

theorem Adds.nil (h : LaysOut run ready content) : Adds run ready table [] "" table := by
  intro s hs
  rw [h.nil]
  exact ⟨rfl, hs⟩

/-- A part of a table around others. -/
theorem Adds.enclose (h : LaysOut run ready content) (table : TablePosition) (tag : Tag)
    (hopening : isPart (.opening tag) = true) (hclosing : isPart (.closing tag.closing) = true)
    (hinside : Adds run ready (step false ⟨table, none, none⟩ (.opening tag)).1.table es first
      table') :
    Adds run ready table (Markup.enclose tag es)
      ((step false ⟨table, none, none⟩ (.opening tag)).2 ++ first ++
        (step false ⟨table', none, none⟩ (.closing tag.closing)).2)
      (step false ⟨table', none, none⟩ (.closing tag.closing)).1.table := by
  have hfront := Adds.append h (h.part table hopening) hinside
  exact Adds.append h hfront (h.part table' hclosing)

variable (alignments : List ColumnAlignment)

/-- A cell is of the column the writer is at, and the next one is of the next. -/
theorem Adds.oneCell (h : LaysOut run ready content) (column : Nat) (inHead : Bool)
    {cell : List Event} (hcell : Steady .inline cell) :
    Adds run ready ⟨alignments, column, inHead⟩ (Markup.enclose .tableCell cell)
      (Grid.cellText content alignments (if inHead then "th" else "td") column cell)
      ⟨alignments, column + 1, inHead⟩ := by
  have henclosed := Adds.enclose h ⟨alignments, column, inHead⟩ .tableCell rfl rfl
    (h.cell ⟨alignments, column, inHead⟩ hcell)
  simpa only [step, openTag, closeTag, Tag.closing, TablePosition.cellName, TablePosition.style,
    Grid.cellText, String.append_assoc] using henclosed

/-- The columns of a row are counted from the place of its first cell. -/
theorem Adds.cells (h : LaysOut run ready content) (column : Nat) (inHead : Bool)
    {cells : List (List Event)} (hcells : ∀ cell ∈ cells, Steady .inline cell) :
    Adds run ready ⟨alignments, column, inHead⟩ (Grid.cellEvents cells)
      (Grid.cellsText content alignments (if inHead then "th" else "td") column cells)
      ⟨alignments, column + cells.length, inHead⟩ := by
  induction cells generalizing column with
  | nil => exact Adds.nil h
  | cons cell cells ih =>
      have hfirst := Adds.oneCell alignments h column inHead
        (hcells cell List.mem_cons_self)
      have hrest := ih (column + 1) fun c hc => hcells c (List.mem_cons_of_mem _ hc)
      have htext : Grid.cellsText content alignments (if inHead then "th" else "td") column
          (cell :: cells) =
          Grid.cellText content alignments (if inHead then "th" else "td") column cell ++
            Grid.cellsText content alignments (if inHead then "th" else "td") (column + 1)
              cells := by
        simp only [Grid.cellsText, List.mapIdx_cons, String.join_cons, Nat.add_zero,
          Nat.add_assoc, Nat.add_comm 1]
      rw [htext, List.length_cons, Nat.add_comm cells.length, ← Nat.add_assoc]
      exact Adds.append h hfirst hrest

/-- A row behind the head starts at the first column, wherever the row in front ended. -/
theorem Adds.row (h : LaysOut run ready content) (column : Nat) {cells : List (List Event)}
    (hcells : ∀ cell ∈ cells, Steady .inline cell) :
    Adds run ready ⟨alignments, column, false⟩ (Markup.enclose .tableRow (Grid.cellEvents cells))
      (Grid.rowText content alignments cells) ⟨alignments, cells.length, false⟩ := by
  have hinside := Adds.cells alignments h 0 false hcells
  rw [Nat.zero_add] at hinside
  exact Adds.enclose h ⟨alignments, column, false⟩ .tableRow rfl rfl hinside

theorem Adds.rows (h : LaysOut run ready content) (column : Nat)
    {rows : List (List (List Event))} (hcells : ∀ row ∈ rows, ∀ cell ∈ row, Steady .inline cell) :
    ∃ last, Adds run ready ⟨alignments, column, false⟩
      (rows.flatMap fun row => Markup.enclose .tableRow (Grid.cellEvents row))
      (String.join (rows.map (Grid.rowText content alignments)))
      ⟨alignments, last, false⟩ := by
  induction rows generalizing column with
  | nil => exact ⟨column, Adds.nil h⟩
  | cons row rows ih =>
      have hfirst := Adds.row alignments h column (hcells row List.mem_cons_self)
      obtain ⟨last, hrest⟩ := ih row.length fun r hr => hcells r (List.mem_cons_of_mem _ hr)
      refine ⟨last, ?_⟩
      rw [List.flatMap_cons, List.map_cons, String.join_cons]
      exact Adds.append h hfirst hrest

/-- A table is laid out alike behind every other. -/
theorem Adds.grid (h : LaysOut run ready content) (before : TablePosition) {g : Grid}
    (hcells : g.RunningText) :
    ∃ behind, Adds run ready before g.events (g.text content) behind := by
  have hhead := Adds.enclose h ⟨g.alignments, 0, false⟩ .tableHead rfl rfl
    (Adds.cells g.alignments h 0 true hcells.1)
  obtain ⟨last, hrows⟩ := Adds.rows g.alignments h (0 + g.head.length) hcells.2
  have henclosed : Adds run ready before g.events
      ("<table>" ++ ("<thead><tr>" ++ Grid.cellsText content g.alignments "th" 0 g.head ++
        "</tr></thead><tbody>" ++
          String.join (g.rows.map (Grid.rowText content g.alignments))) ++ "</tbody></table>")
      ⟨g.alignments, last, false⟩ :=
    Adds.enclose h before (.table g.alignments) rfl rfl (Adds.append h hhead hrows)
  refine ⟨⟨g.alignments, last, false⟩, ?_⟩
  rw [Grid.text]
  simpa only [String.append_assoc] using henclosed

theorem Adds.grids (h : LaysOut run ready content) (before : TablePosition) {gs : List Grid}
    (hcells : ∀ g ∈ gs, g.RunningText) :
    ∃ behind, Adds run ready before (gs.flatMap Grid.events)
      (String.join (gs.map (Grid.text content))) behind := by
  induction gs generalizing before with
  | nil => exact ⟨before, Adds.nil h⟩
  | cons g gs ih =>
      obtain ⟨mid, hfirst⟩ := Adds.grid h before (hcells g List.mem_cons_self)
      obtain ⟨behind, hrest⟩ := ih mid fun g' hg => hcells g' (List.mem_cons_of_mem _ hg)
      refine ⟨behind, ?_⟩
      rw [List.flatMap_cons, List.map_cons, String.join_cons]
      exact Adds.append h hfirst hrest

/-- Tables stand between what is in front of them and what is behind, if they leave nothing behind
that shows there. -/
theorem LaysOut.run_grids (h : LaysOut run ready content) {s : σ} {gs : List Grid}
    {behind : List Event} (hs : ready table s) (hcells : ∀ g ∈ gs, g.RunningText)
    (hbehind : ∀ {table' s'}, ready table' s' → (run s' behind).2 = (run s behind).2) :
    String.join (run s (gs.flatMap Grid.events ++ behind)).2 =
      String.join (gs.map (Grid.text content)) ++ String.join (run s behind).2 := by
  obtain ⟨table', hgrids⟩ := Adds.grids h table hcells
  obtain ⟨htext, hready⟩ := hgrids s hs
  rw [h.append, String.join_append, htext, hbehind hready]

end Layout

/-! ## Running text -/

/-- A point inside running text, counted from where that began. -/
def Inlined (p : Position) : Prop :=
  p.content = .inline ∧ ∀ o ∈ p.opened, o.outer = .inline ∧ o.tag.isInline = true

theorem isPart_eq_false_of_inline {tag : Tag} (h : tag.isInline = true) :
    isPart (.opening tag) = false ∧ isPart (.closing tag.closing) = false := by
  cases tag <;> first | exact ⟨rfl, rfl⟩ | cases h

theorem Inlined.step {p q : Position} {e : Event} (h : Inlined p) (hstep : p.step e = some q) :
    isPart e = false ∧ Inlined q := by
  obtain ⟨hcontent, hopened⟩ := h
  cases e with
  | opening tag =>
      obtain ⟨inner, hin, rfl⟩ := Position.step_opening hstep
      rw [hcontent] at hin
      obtain ⟨htag, rfl⟩ := Content.inside_inline hin
      exact ⟨(isPart_eq_false_of_inline htag).1, rfl,
        List.forall_mem_cons.2 ⟨⟨hcontent, htag⟩, hopened⟩⟩
  | closing c =>
      obtain ⟨o, -, rfl, ho, hq⟩ := Position.step_closing hstep
      rw [ho] at hopened
      obtain ⟨⟨houter, htag⟩, hrest⟩ := List.forall_mem_cons.1 hopened
      rw [houter] at hq
      exact ⟨(isPart_eq_false_of_inline htag).2, hq, hrest⟩
  | _ =>
      obtain ⟨-, rfl⟩ := Position.step_leaf rfl hstep
      exact ⟨rfl, hcontent, hopened⟩

theorem Inlined.no_part {p q : Position} {es : List Event} (h : Inlined p)
    (hrun : p.run es = some q) : ∀ e ∈ es, isPart e = false := by
  induction es generalizing p with
  | nil => nofun
  | cons e es ih =>
      rw [Position.run_cons] at hrun
      obtain ⟨mid, hstep, hrest⟩ := Option.bind_eq_some_iff.1 hrun
      obtain ⟨hpart, hmid⟩ := h.step hstep
      exact List.forall_mem_cons.2 ⟨hpart, ih hmid hrest⟩

/-- Running text has no part in a table. -/
theorem no_part_of_inline {es : List Event} (h : Steady .inline es) :
    ∀ e ∈ es, isPart e = false :=
  Inlined.no_part (p := ⟨.inline, []⟩) ⟨rfl, nofun⟩ (h [])

/-- The inside of a paragraph. -/
def inParagraph : Position := ⟨.inline, [⟨.paragraph, .flow⟩]⟩

theorem linked_inParagraph : Linked inParagraph.content inParagraph.opened :=
  ⟨⟨.inline, rfl, .inl rfl⟩, rfl⟩

theorem step_table (hardLineBreak : Bool) (s : State) {e : Event} (h : isPart e = false) :
    (step hardLineBreak s e).1.table = s.table := by
  have hreads : readsTable e = false := by
    cases e with
    | opening tag => cases tag <;> first | rfl | cases h
    | closing c => cases c <;> first | rfl | cases h
    | _ => rfl
  have hopen : ∀ alignments, e ≠ .opening (.table alignments) := by
    rintro alignments rfl
    cases h
  exact congrArg (fun r => r.1.table) (step_withTable hardLineBreak s s.table hreads hopen)

theorem run_table (hardLineBreak : Bool) (s : State) {es : List Event}
    (h : ∀ e ∈ es, isPart e = false) : (run hardLineBreak s es).1.table = s.table := by
  induction es generalizing s with
  | nil => rfl
  | cons e es ih =>
      obtain ⟨he, hes⟩ := List.forall_mem_cons.1 h
      rw [run_cons, ih _ hes, step_table hardLineBreak s he]

/-! ## The XHTML writer -/

/-- The writer has nothing pending but its place in a table. -/
def Ready (table : TablePosition) (s : State) : Prop := s = ⟨table, none, none⟩

theorem ready_iff {table : TablePosition} {s : State} :
    Ready table s ↔ s.table = table ∧ s.image = none ∧ s.code = none := by
  cases s
  simp [Ready]

theorem laysOut (hardLineBreak : Bool) :
    LaysOut (run hardLineBreak) Ready (render hardLineBreak) where
  nil _ := rfl
  append := run_append hardLineBreak
  part table e he := by
    rintro s rfl
    cases e with
    | opening tag => cases tag <;> first | exact ⟨rfl, rfl⟩ | cases he
    | closing c => cases c <;> exact ⟨rfl, rfl⟩
    | _ => cases he
  cell table es hes := by
    rintro s rfl
    have hrun : inParagraph.run es = some inParagraph := hes _
    have htracks : ∀ table, Tracks inParagraph.tags ⟨table, none, none⟩ := fun _ =>
      ⟨rfl, nofun⟩
    refine ⟨?_, ?_⟩
    · -- the place in the table is nothing to a paragraph
      have hagree : Agree inParagraph.tags .start ⟨table, none, none⟩ := by
        refine ⟨rfl, rfl, ?_⟩
        rintro ⟨alignments, hmem⟩
        simp [inParagraph, Position.tags] at hmem
      rw [hagree.run hardLineBreak (htracks _) linked_inParagraph hrun]
      rfl
    · have hbehind := (htracks table).run hardLineBreak (Position.nest_of_run hrun)
      have himage : (run hardLineBreak ⟨table, none, none⟩ es).1.image = none :=
        hbehind.image_eq_none (by simp [inParagraph, Position.tags, Tag.isImage])
      have hcode : (run hardLineBreak ⟨table, none, none⟩ es).1.code = none :=
        hbehind.code_eq_none (by simp [inParagraph, Position.tags])
      have htable := run_table hardLineBreak ⟨table, none, none⟩ (no_part_of_inline hes)
      exact ready_iff.2 ⟨htable, himage, hcode⟩

/-! ## In a document -/

/-- A stretch that starts with a table starts where blocks may stand. -/
theorem flow_of_grid {p q : Position} {g : Grid} {rest : List Event}
    (h : p.run (g.events ++ rest) = some q) : p.content = .flow := by
  obtain ⟨mid, hstep, -⟩ := Option.bind_eq_some_iff.1 h
  obtain ⟨content, hinside, -⟩ := Position.step_opening hstep
  exact (Content.inside_block hinside rfl (by simp)).1

/-- Where blocks may stand, only containers of blocks are open. -/
theorem content_of_mem_tags {p : Position} (hlinked : Linked p.content p.opened)
    (hflow : p.content = .flow) : ∀ tag ∈ p.tags, tag.content = .flow := by
  intro tag htag
  obtain ⟨o, ho, rfl⟩ := List.mem_map.1 htag
  rw [hflow] at hlinked
  exact hlinked.flow_of_mem ho

theorem no_table_of_flow {tags : List Tag} (h : ∀ tag ∈ tags, tag.content = .flow) :
    ¬∃ alignments, .table alignments ∈ tags := by
  rintro ⟨alignments, hmem⟩
  cases h _ hmem

theorem Tracks.ready {tags : List Tag} {s : State} (h : Tracks tags s)
    (hflow : ∀ tag ∈ tags, tag.content = .flow) : Ready s.table s := by
  refine ready_iff.2 ⟨rfl, h.image_eq_none ?_, h.code_eq_none ?_⟩
  · intro tag htag
    have hcontent := hflow tag htag
    cases tag <;> first | (cases hcontent; done) | rfl
  · intro info hmem
    cases hflow _ hmem

theorem render_split (hardLineBreak : Bool) (before es : List Event) :
    render hardLineBreak (before ++ es) = render hardLineBreak before ++
      String.join (run hardLineBreak (run hardLineBreak .start before).1 es).2 := by
  rw [render, pieces, run_append, String.join_append]
  rfl

/-- The XHTML of tables among blocks. -/
theorem render_grids (hardLineBreak : Bool) {before behind : List Event} {p q : Position}
    {gs : List Grid} (hbefore : Position.top.run before = some p) (hbehind : p.run behind = some q)
    (hflow : p.content = .flow) (hcells : ∀ g ∈ gs, g.RunningText) :
    ∃ back, render hardLineBreak (before ++ behind) = render hardLineBreak before ++ back ∧
      render hardLineBreak (before ++ gs.flatMap Grid.events ++ behind) =
        render hardLineBreak before ++ String.join (gs.map (Grid.text (render hardLineBreak))) ++
          back := by
  have hlinked : Linked p.content p.opened := Linked.run (p := .top) rfl hbefore
  have htags := content_of_mem_tags hlinked hflow
  have htracks : Tracks p.tags (run hardLineBreak .start before).1 :=
    tracks_start.run hardLineBreak (Position.nest_of_run hbefore)
  have hready := htracks.ready htags
  refine ⟨_, render_split hardLineBreak before behind, ?_⟩
  rw [List.append_assoc, render_split, (laysOut hardLineBreak).run_grids hready hcells,
    String.append_assoc]
  intro table' s' hs'
  have hagree : Agree p.tags (run hardLineBreak .start before).1 s' := by
    rw [hready, hs']
    exact ⟨rfl, rfl, fun hin => absurd hin (no_table_of_flow htags)⟩
  exact hagree.run hardLineBreak htracks hlinked hbehind

end WikiPress.Xhtml
