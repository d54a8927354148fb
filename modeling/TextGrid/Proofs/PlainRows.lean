import TextGrid.Formatter
import TextGrid.Proofs.PlainCells

/-!
# Rows of plain text

A row joins the lines of its cells with decorations between and around them. The slack between the
groups, and the cut of the left group where there is no slack, follow the plain text of the cells.
-/

namespace TextGrid

namespace Text

/-- The two groups of a line of plain text in a room of `inner` cells. -/
def grouped (inner : Int) (separator fill : Text) (left right : List Text) : Text :=
  let leftText := joined separator left
  if right.isEmpty then leftText
  else
    let rightText := joined separator right
    if left.isEmpty then repeated fill (inner - cells rightText) ++ rightText
    else
      let gap := inner - cells leftText - cells rightText
      if cells separator ≤ gap then
        leftText ++ repeated fill (gap - cells separator) ++ separator ++ rightText
      else
        let room := max (inner - cells rightText - cells separator) 0
        padded .left (fitting false room leftText) room ++ separator ++ rightText

end Text

namespace Decorations

/-- Whether decorations show others of ordinary plain text. -/
structure Draws (decorations plain : Decorations) : Prop where
  separator : Markup.Draws decorations.separator plain.separator
  leading : Markup.Draws decorations.leading plain.leading
  trailing : Markup.Draws decorations.trailing plain.trailing

/-- A line of plain text between decorations of plain text. -/
def plainLine (plain : Decorations) (total : Int) (fill : Text) (left right : List Text) : Text :=
  let inner := if right.isEmpty then total
    else total - Text.cells plain.leading - Text.cells plain.trailing
  plain.leading ++ Text.grouped inner plain.separator fill left right ++ plain.trailing

end Decorations

namespace Formatter

open Markup

/-- Texts are there exactly if what they draw is. -/
theorem isEmpty_of_forall₂ {texts plains : List Text} (h : List.Forall₂ Draws texts plains) :
    texts.isEmpty = plains.isEmpty := by
  cases h <;> rfl

/-- The groups of a line show the groups of its plain text. -/
theorem joinGroups_draws {separator separatorPlain fill fillPlain : Text}
    {left leftPlains right rightPlains : List Text} (hseparator : Draws separator separatorPlain)
    (hfill : Draws fill fillPlain) (hleft : List.Forall₂ Draws left leftPlains)
    (hright : List.Forall₂ Draws right rightPlains) (inner : Int) :
    ∃ line, joinGroups inner separator fill left right = .ok line ∧
      Draws line (Text.grouped inner separatorPlain fillPlain leftPlains rightPlains) := by
  have hleftText := hseparator.joined hleft
  have hrightText := hseparator.joined hright
  unfold joinGroups Text.grouped
  simp only [isEmpty_of_forall₂ hleft, isEmpty_of_forall₂ hright, hleftText.displayWidth,
    hrightText.displayWidth, hseparator.displayWidth, ok_bind]
  generalize Text.joined separator left = leftText at hleftText ⊢
  generalize Text.joined separatorPlain leftPlains = leftPlain at hleftText ⊢
  generalize Text.joined separator right = rightText at hrightText ⊢
  generalize Text.joined separatorPlain rightPlains = rightPlain at hrightText ⊢
  by_cases hnoRight : rightPlains.isEmpty = true
  · rw [if_pos hnoRight, if_pos hnoRight]
    exact ⟨leftText, rfl, hleftText⟩
  · rw [if_neg hnoRight, if_neg hnoRight]
    by_cases hnoLeft : leftPlains.isEmpty = true
    · rw [if_pos hnoLeft, if_pos hnoLeft]
      exact ⟨_, rfl, (hfill.repeated _).append hrightText⟩
    · rw [if_neg hnoLeft, if_neg hnoLeft]
      by_cases hgap : (Text.cells separatorPlain : Int) ≤
          inner - Text.cells leftPlain - Text.cells rightPlain
      · rw [if_pos hgap, if_pos hgap]
        exact ⟨_, rfl, ((hleftText.append (hfill.repeated _)).append hseparator).append hrightText⟩
      · rw [if_neg hgap, if_neg hgap]
        generalize hroom : max (inner - Text.cells rightPlain - Text.cells separatorPlain) 0 = room
        obtain ⟨kept, hcut, hkept⟩ := hleftText.cut room
        have hmax : max room 0 = room := by omega
        rw [hmax] at hkept
        obtain ⟨filled, hpad, hfilled⟩ := Cell.pad_draws hkept .left room
        have hpadRight : padRight kept room = .ok filled := hpad
        simp only [hcut, ok_bind, hpadRight]
        exact ⟨_, rfl, (hfilled.append hseparator).append hrightText⟩

/-- Groups that are joined in the room between the decorations make a line. -/
theorem joinLine_eq_ok {total inner : Int} {decorations : Decorations} {fill body : Text}
    {left right : List Text} {leading trailing : Nat}
    (hleading : Markup.displayWidth decorations.leading = .ok leading)
    (htrailing : Markup.displayWidth decorations.trailing = .ok trailing)
    (hinner : inner = if right.isEmpty then total else total - leading - trailing)
    (hbody : joinGroups inner decorations.separator fill left right = .ok body) :
    joinLine total decorations fill left right =
      .ok (decorations.leading ++ body ++ decorations.trailing) := by
  subst hinner
  unfold joinLine
  split at hbody
  · next hnone =>
    simp only [if_pos hnone, pure_bind, hbody]
    rfl
  · next hsome =>
    simp only [if_neg hsome, hleading, htrailing, ok_bind, pure_bind, hbody]
    rfl

/-- A line draws the line of what its parts draw. -/
theorem joinLine_draws {decorations plain : Decorations} {fill fillPlain : Text}
    {left leftPlains right rightPlains : List Text} (hdecorations : decorations.Draws plain)
    (hfill : Draws fill fillPlain) (hleft : List.Forall₂ Draws left leftPlains)
    (hright : List.Forall₂ Draws right rightPlains) (total : Int) :
    ∃ line, joinLine total decorations fill left right = .ok line ∧
      Draws line (plain.plainLine total fillPlain leftPlains rightPlains) := by
  unfold Decorations.plainLine
  generalize hinner : (if rightPlains.isEmpty = true then total
    else total - Text.cells plain.leading - Text.cells plain.trailing) = inner
  rw [← isEmpty_of_forall₂ hright] at hinner
  obtain ⟨body, hjoin, hdraws⟩ :=
    joinGroups_draws hdecorations.separator hfill hleft hright inner
  refine ⟨decorations.leading ++ body ++ decorations.trailing, ?_, ?_⟩
  · exact joinLine_eq_ok hdecorations.leading.displayWidth hdecorations.trailing.displayWidth
      hinner.symm hjoin
  · exact (hdecorations.leading.append hdraws).append hdecorations.trailing

/-! ### Cells side by side -/

/-- Every line of a cell draws the line there of the plain cell. -/
theorem lineAt_draws {cell plain : Cell} (h : cell.Pictures plain) (position : Nat) :
    Draws (cell.lineAt position) (plain.lineAt position) := by
  have hblank : Draws cell.blank plain.blank := by
    rw [Cell.blank, Cell.blank, h.width]
    exact Draws.spaces _
  unfold Cell.lineAt
  have hlines := h.lines
  generalize cell.lines = lines at hlines ⊢
  generalize plain.lines = plains at hlines ⊢
  induction hlines generalizing position with
  | nil => exact hblank
  | cons hfirst _ ih =>
    cases position with
    | zero => exact hfirst
    | succ position => simpa using ih position

/-- Cells are no higher than the one with the most lines. -/
theorem height_le {cells : List Cell} {most : Nat}
    (h : ∀ cell ∈ cells, cell.lines.length ≤ most) : height cells ≤ most := by
  have hbound : ∀ (tallest : Nat) (lengths : List Nat), tallest ≤ most →
      (∀ length ∈ lengths, length ≤ most) → lengths.foldl max tallest ≤ most := by
    intro tallest lengths htallest hlengths
    induction lengths generalizing tallest with
    | nil => exact htallest
    | cons length later ih =>
      obtain ⟨hlength, hlater⟩ := List.forall_mem_cons.mp hlengths
      exact ih (max tallest length) (by omega) hlater
  apply hbound 0 _ (by omega)
  intro length hlength
  obtain ⟨cell, hcell, rfl⟩ := List.mem_map.mp hlength
  exact h cell hcell

/-- Cells are as high as the plain cells that they show. -/
theorem height_eq {cells plains : List Cell} (h : List.Forall₂ Cell.Pictures cells plains) :
    height cells = height plains := by
  have hlengths : cells.map (·.lines.length) = plains.map (·.lines.length) := by
    induction h with
    | nil => rfl
    | cons hfirst _ ih => rw [List.map_cons, List.map_cons, hfirst.lines.length_eq, ih]
  rw [height, height, hlengths]

/-- The lines of a group of cells draw those of the plain cells. -/
theorem groupLines_draws (columns : List Column) {cells plains : List Cell}
    (h : List.Forall₂ Cell.Pictures cells plains) (anchor : Anchor) (position : Nat) :
    List.Forall₂ Draws (groupLines anchor (columns.zip cells) position)
      (groupLines anchor (columns.zip plains) position) := by
  unfold groupLines
  induction h generalizing columns with
  | nil => simp
  | cons hfirst _ ih =>
    cases columns with
    | nil => simp
    | cons column columns =>
      simp only [List.zip_cons_cons, List.filter_cons]
      split
      · exact .cons (lineAt_draws hfirst position) (ih columns)
      · exact ih columns

/-- The lines of a row of plain cells. -/
def plainAssemble (columns : List Column) (total : Int) (plain : Decorations) (fill : Text)
    (cells : List Cell) : List Text :=
  (List.range (height cells)).map fun position =>
    plain.plainLine total fill (groupLines .left (columns.zip cells) position)
      (groupLines .right (columns.zip cells) position)

/-- The lines of cells draw those of the plain cells. -/
theorem assemble_draws (formatter : Formatter) {decorations plain : Decorations}
    {fill fillPlain : Text} {cells plains : List Cell} (hdecorations : decorations.Draws plain)
    (hfill : Draws fill fillPlain) (hcells : List.Forall₂ Cell.Pictures cells plains) :
    ∃ lines, formatter.assemble cells decorations fill = .ok lines ∧
      List.Forall₂ Draws lines
        (plainAssemble formatter.spec.columns formatter.total plain fillPlain plains) := by
  have hposition : ∀ position : Nat, ∃ line,
      Markup.lift (joinLine formatter.total decorations fill
        (groupLines .left (formatter.spec.columns.zip cells) position)
        (groupLines .right (formatter.spec.columns.zip cells) position)) = .ok line ∧
      Draws line (plain.plainLine formatter.total fillPlain
        (groupLines .left (formatter.spec.columns.zip plains) position)
        (groupLines .right (formatter.spec.columns.zip plains) position)) := by
    intro position
    obtain ⟨line, hjoin, hline⟩ := joinLine_draws hdecorations hfill
      (groupLines_draws formatter.spec.columns hcells .left position)
      (groupLines_draws formatter.spec.columns hcells .right position) formatter.total
    exact ⟨line, by rw [hjoin]; rfl, hline⟩
  unfold assemble plainAssemble
  rw [height_eq hcells]
  simp only [List.forall₂_map_right_iff]
  refine exists_mapM_eq_ok (List.forall₂_same.mpr fun _ _ => rfl) ?_
  rintro position _ rfl
  exact hposition position

end Formatter

namespace Cell

open Markup

/-- Whether a column can draw what a record has for it: well-nested markup whose plain text it
takes. -/
def IsDrawable (record : Value) (column : Column) (index : Int) : Prop :=
  ∃ text plain, textIn record column index = .ok text ∧ ShowsWithout '[' text plain ∧
    column.overflow.Takes plain

/-- The plain text of a column in a record. -/
def shownIn (record : Value) (column : Column) (index : Int) : Text :=
  match textIn record column index with
  | .ok text => shown text
  | .error _ => []

end Cell

/-- Whether the header of a column is a text that the column can draw. -/
def Column.HasHeader (column : Column) : Prop :=
  ∃ header plain, column.headerValue = .text header ∧ Markup.ShowsWithout '[' header plain ∧
    column.overflow.Takes plain

/-- The plain text of the header of a column. -/
def Column.shownHeader (column : Column) : Text :=
  match Cell.textOf column.headerValue with
  | .ok header => Markup.shown header
  | .error _ => []

/-- A header that is a text shows its plain text. -/
theorem Column.shownHeader_eq {column : Column} {header plain : Text}
    (hvalue : column.headerValue = .text header) (hshows : Markup.ShowsWithout '[' header plain) :
    column.shownHeader = plain := by
  rw [shownHeader, hvalue]
  exact hshows.shown_eq

namespace Formatter

open Markup

/-! ### Lines of records -/

/-- The cells of a record's plain texts. -/
def plainCells (formatter : Formatter) (record : Value) : List Cell :=
  formatter.slots.map fun slot =>
    Cell.drawPlain (Cell.shownIn record slot.column slot.index) slot.column slot.width slot.index

/-- The lines of a row of plain cells, if there is anything to draw. -/
def plainRow (formatter : Formatter) (plain : Decorations) (cells : List Cell) : List Text :=
  if formatter.draws then
    plainAssemble formatter.spec.columns formatter.total plain [' '] cells
  else []

/-- A space draws itself. -/
theorem draws_space : Draws [' '] [' '] :=
  Draws.spaces 1

/-- The cells of a record show those of its plain texts. -/
theorem cells_pictures {formatter : Formatter} {record : Value}
    (hcolumns : ∀ slot ∈ formatter.slots, slot.column.overflow.IsOrdinary)
    (hrecord : ∀ slot ∈ formatter.slots, Cell.IsDrawable record slot.column slot.index) :
    ∃ cells, formatter.cells record = .ok cells ∧
      List.Forall₂ Cell.Pictures cells (formatter.plainCells record) := by
  unfold cells plainCells
  simp only [List.forall₂_map_right_iff]
  have hslots : List.Forall₂ (fun slot target => slot = target ∧ slot ∈ formatter.slots)
      formatter.slots formatter.slots := List.forall₂_same.mpr fun _ hslot => ⟨rfl, hslot⟩
  refine exists_mapM_eq_ok hslots ?_
  rintro slot _ ⟨rfl, hslot⟩
  obtain ⟨text, plain, htext, hshows, htakes⟩ := hrecord slot hslot
  obtain ⟨cell, hdraw, hcell⟩ :=
    Cell.draw_pictures hshows (hcolumns slot hslot) htakes slot.width slot.index
  have hplain : Cell.shownIn record slot.column slot.index = plain := by
    rw [Cell.shownIn, htext]
    exact hshows.shown_eq
  exact ⟨cell, by rw [htext]; exact hdraw, by rw [hplain]; exact hcell⟩

/-- The lines of a record show the lines of its plain texts. -/
theorem rowLines_draws {formatter : Formatter} {plain : Decorations} {record : Value}
    (hdecorations : formatter.spec.decorations.Draws plain)
    (hcolumns : ∀ slot ∈ formatter.slots, slot.column.overflow.IsOrdinary)
    (hrecord : ∀ slot ∈ formatter.slots, Cell.IsDrawable record slot.column slot.index) :
    ∃ lines, formatter.rowLines record = .ok lines ∧
      List.Forall₂ Draws lines (formatter.plainRow plain (formatter.plainCells record)) := by
  unfold rowLines plainRow
  split
  · obtain ⟨cells, hcells, hpictures⟩ := cells_pictures hcolumns hrecord
    obtain ⟨lines, hassemble, hlines⟩ := assemble_draws formatter hdecorations draws_space hpictures
    exact ⟨lines, by rw [hcells]; exact hassemble, hlines⟩
  · exact ⟨[], rfl, .nil⟩

/-! ### The line of headers -/

/-- Whether a value names a style, or none. -/
def IsStyleName (style : Value) : Prop :=
  style = .null ∨ ∃ name, style = .text name ∧ isTagName name = true

/-- A column takes any style, and is otherwise as it was. -/
theorem exists_restyle {style : Value} (hstyle : IsStyleName style) (column : Column) :
    ∃ restyled : Column, restyle style column = .ok restyled ∧
      ∃ source, restyled.toColumnLayout = { column.toColumnLayout with style := source } := by
  obtain ⟨hwidth, hoverflow, _, hkey⟩ := ColumnLayout.fault?_eq_none_iff.mp column.sound
  have hcheck : ∀ source : Option StyleSource,
      ColumnLayout.styleFault? { column.toColumnLayout with style := source } = none →
      ∃ restyled : Column,
        ColumnLayout.check { column.toColumnLayout with style := source } = .ok restyled ∧
        restyled.toColumnLayout = { column.toColumnLayout with style := source } := by
    intro source hsource
    have hsound : ColumnLayout.fault? { column.toColumnLayout with style := source } = none :=
      ColumnLayout.fault?_eq_none_iff.mpr ⟨hwidth, hoverflow, hsource, hkey⟩
    refine ⟨⟨{ column.toColumnLayout with style := source }, hsound⟩, ?_, rfl⟩
    unfold ColumnLayout.check
    split
    · rfl
    · next fault hfault => exact absurd (hsound.symm.trans hfault) (by simp)
  rcases hstyle with rfl | ⟨name, rfl, hname⟩
  · obtain ⟨restyled, hrestyled, hlayout⟩ := hcheck none rfl
    exact ⟨restyled, hrestyled, none, hlayout⟩
  · obtain ⟨restyled, hrestyled, hlayout⟩ :=
      hcheck (some (.named name)) (by simp [ColumnLayout.styleFault?, hname])
    refine ⟨restyled, ?_, some (.named name), hlayout⟩
    cases name with
    | nil => simp [isTagName] at hname
    | cons first later => exact hrestyled

/-- The cells of the headers' plain texts. -/
def plainHeaders (formatter : Formatter) : List Cell :=
  formatter.slots.map fun slot =>
    Cell.drawPlain slot.column.shownHeader slot.column slot.width slot.index

/-- Whether a slot is another one but for the style of its column. -/
structure Slot.Restyles (restyled slot : Slot) : Prop where
  index : restyled.index = slot.index
  width : restyled.width = slot.width
  column : ∃ source,
    restyled.column.toColumnLayout = { slot.column.toColumnLayout with style := source }

/-- A header is drawn as its plain text is, whatever the style of its column. -/
theorem header_pictures {restyled slot : Slot} (h : restyled.Restyles slot)
    (hcolumn : slot.column.overflow.IsOrdinary) (hheader : slot.column.HasHeader) :
    ∃ cell, Cell.format restyled.column.headerValue restyled.column restyled.width
        restyled.index = .ok cell ∧
      cell.Pictures
        (Cell.drawPlain slot.column.shownHeader slot.column slot.width slot.index) := by
  obtain ⟨source, hlayout⟩ := h.column
  obtain ⟨header, plain, hvalue, hshows, htakes⟩ := hheader
  have hoverflow : restyled.column.overflow = slot.column.overflow := by rw [hlayout]
  have hanchor : restyled.column.anchor = slot.column.anchor := by rw [hlayout]
  have hsame : restyled.column.headerValue = slot.column.headerValue := by rw [hlayout]; rfl
  rw [← hoverflow] at hcolumn htakes
  obtain ⟨cell, hdraw, hcell⟩ :=
    Cell.draw_pictures hshows hcolumn htakes restyled.width restyled.index
  have hplain : Cell.drawPlain plain restyled.column restyled.width restyled.index =
      Cell.drawPlain plain slot.column slot.width slot.index := by
    rw [h.width, h.index]
    exact Cell.drawPlain_congr plain hoverflow hanchor _ _
  refine ⟨cell, by rw [hsame, hvalue]; exact hdraw, ?_⟩
  rw [Column.shownHeader_eq hvalue hshows, ← hplain]
  exact hcell

/-- The cells of the column headers in a style. -/
def headerCells (formatter : Formatter) (style : Value) : Except LayoutError (List Cell) := do
  let slots ← formatter.slots.mapM fun slot =>
    return { slot with column := ← restyle style slot.column }
  slots.mapM fun slot => Cell.format slot.column.headerValue slot.column slot.width slot.index

/-- The lines of the headers are those of a row of header cells. -/
theorem headerLines_eq (formatter : Formatter) (style : Value) :
    formatter.headerLines style =
      if formatter.draws then formatter.headerCells style >>= formatter.assembleRow
      else .ok [] := by
  unfold headerLines headerCells
  split
  · rw [bind_assoc]
  · rfl

/-- The cells of the headers show those of their plain texts. -/
theorem headerCells_pictures {formatter : Formatter} {style : Value} (hstyle : IsStyleName style)
    (hcolumns : ∀ slot ∈ formatter.slots, slot.column.overflow.IsOrdinary)
    (hheaders : ∀ slot ∈ formatter.slots, slot.column.HasHeader) :
    ∃ cells, formatter.headerCells style = .ok cells ∧
      List.Forall₂ Cell.Pictures cells formatter.plainHeaders := by
  have hslots : List.Forall₂ (fun slot target => slot = target ∧ slot ∈ formatter.slots)
      formatter.slots formatter.slots := List.forall₂_same.mpr fun _ hslot => ⟨rfl, hslot⟩
  have hrestyle : ∃ restyled, formatter.slots.mapM (fun slot => do
        return { slot with column := ← restyle style slot.column } :
          Slot → Except LayoutError Slot) = .ok restyled ∧
      List.Forall₂ (fun restyled slot => restyled.Restyles slot ∧ slot ∈ formatter.slots) restyled
        formatter.slots := by
    refine exists_mapM_eq_ok hslots ?_
    rintro slot _ ⟨rfl, hslot⟩
    obtain ⟨column, hcolumn, hlayout⟩ := exists_restyle hstyle slot.column
    exact ⟨{ slot with column }, by rw [hcolumn]; rfl, ⟨rfl, rfl, hlayout⟩, hslot⟩
  obtain ⟨restyled, hrestyled, hrestyles⟩ := hrestyle
  unfold headerCells plainHeaders
  simp only [List.forall₂_map_right_iff, hrestyled, ok_bind]
  refine exists_mapM_eq_ok hrestyles ?_
  rintro target slot ⟨hslot, hmem⟩
  exact header_pictures hslot (hcolumns slot hmem) (hheaders slot hmem)

/-- The lines of the headers show the lines of their plain texts, in any style. -/
theorem headerLines_draws {formatter : Formatter} {plain : Decorations} {style : Value}
    (hdecorations : formatter.spec.decorations.Draws plain) (hstyle : IsStyleName style)
    (hcolumns : ∀ slot ∈ formatter.slots, slot.column.overflow.IsOrdinary)
    (hheaders : ∀ slot ∈ formatter.slots, slot.column.HasHeader) :
    ∃ lines, formatter.headerLines style = .ok lines ∧
      List.Forall₂ Draws lines (formatter.plainRow plain formatter.plainHeaders) := by
  rw [headerLines_eq]
  unfold plainRow
  split
  · obtain ⟨cells, hcells, hpictures⟩ := headerCells_pictures hstyle hcolumns hheaders
    obtain ⟨lines, hassemble, hlines⟩ := assemble_draws formatter hdecorations draws_space hpictures
    exact ⟨lines, by rw [hcells]; exact hassemble, hlines⟩
  · exact ⟨[], rfl, .nil⟩

/-! ### Rules -/

/-- The cells of a rule. -/
def ruleCells (formatter : Formatter) (fill : Text) : List Cell :=
  formatter.slots.map fun slot => ⟨slot.index, slot.width, [Text.repeated fill slot.width]⟩

/-- The cells of a rule have one line. -/
theorem height_ruleCells_le (formatter : Formatter) (fill : Text) :
    height (formatter.ruleCells fill) ≤ 1 := by
  apply height_le
  intro cell hcell
  obtain ⟨slot, _, rfl⟩ := List.mem_map.mp hcell
  exact Nat.le_refl 1

/-- The line of a rule of plain text, if there is anything to draw. -/
def plainRule (formatter : Formatter) (fill : Text) (decorations : Decorations) : Text :=
  if formatter.draws then
    (plainAssemble formatter.spec.columns formatter.total decorations fill
      (formatter.ruleCells fill)).head?.getD []
  else []

/-- The first of some lines draws the first of what they draw. -/
theorem head?_draws {lines plains : List Text} (h : List.Forall₂ Draws lines plains) :
    Draws (lines.head?.getD []) (plains.head?.getD []) := by
  cases h with
  | nil => exact Draws.nil
  | cons hfirst _ => exact hfirst

/-- The cells of a rule show themselves. -/
theorem ruleCells_pictures (formatter : Formatter) {fill : Text} (h : Draws fill fill) :
    List.Forall₂ Cell.Pictures (formatter.ruleCells fill) (formatter.ruleCells fill) := by
  refine List.forall₂_same.mpr fun cell hcell => ?_
  obtain ⟨slot, _, rfl⟩ := List.mem_map.mp hcell
  exact ⟨rfl, rfl, .cons (h.repeated _) .nil⟩

/-- A rule of plain strokes draws itself. -/
theorem rule_draws (formatter : Formatter) {fill : Text} {decorations : Decorations}
    (hfill : Draws fill fill) (hdecorations : decorations.Draws decorations) :
    ∃ line, formatter.rule fill decorations = .ok line ∧
      Draws line (formatter.plainRule fill decorations) := by
  unfold rule plainRule
  split
  · obtain ⟨lines, hassemble, hlines⟩ :=
      assemble_draws formatter hdecorations hfill (ruleCells_pictures formatter hfill)
    refine ⟨lines.head?.getD [], ?_, head?_draws hlines⟩
    rw [ruleCells] at hassemble
    simp only [hassemble, ok_bind]
    rfl
  · exact ⟨[], rfl, Draws.nil⟩

end Formatter

end TextGrid
