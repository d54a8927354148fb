import TextGrid.WidthCache

/-!
# Rows

A formatter draws records as rows of one total width. The left-anchored cells stand at the left end,
the right-anchored ones at the right end, and slack goes between the two groups. Where a row is too
narrow for both, the left group is cut.
-/

namespace TextGrid

/-- A spec bound to a total width, with the widths of its columns. -/
structure Formatter where
  spec : Spec
  total : Int
  measured : Measured
  widths : Widths

namespace Formatter

/-- Binds a spec to a total width, through a cache of widths. -/
def bind (cache : WidthCache) (spec : Spec) (total : Int) (measured : Measured) :
    Except LayoutError Formatter × WidthCache :=
  let (widths, cache) := cache.resolve spec total measured
  (widths.map fun widths => ⟨spec, total, measured, widths⟩, cache)

/-- Binds a spec to a total width, with the columns measured on some records. -/
def forRecords (cache : WidthCache) (spec : Spec) (total : Int) (records : List Value)
    (withHeaders : Bool) : Except LayoutError Formatter × WidthCache :=
  match Measured.ofRecords spec records withHeaders with
  | .error e => (.error e, cache)
  | .ok measured => bind cache spec total (some measured)

/-- The same formatter at another total width. -/
def withTotal (cache : WidthCache) (formatter : Formatter) (total : Int) :
    Except LayoutError Formatter × WidthCache :=
  bind cache formatter.spec total formatter.measured

/-- A column with its position and its width. -/
structure Slot where
  column : Column
  index : Nat
  width : Int

/-- The columns with their positions and widths. -/
def slots (formatter : Formatter) : List Slot :=
  (formatter.spec.columns.zipIdx.zip formatter.widths.widths).map
    fun ((column, index), width) => ⟨column, index, width⟩

/-- Whether there is anything to draw: some columns and a positive total width. -/
def draws (formatter : Formatter) : Bool :=
  !formatter.spec.columns.isEmpty && 0 < formatter.total

/-- The cells of a record. -/
def cells (formatter : Formatter) (record : Value) : Except LayoutError (List Cell) :=
  formatter.slots.mapM fun slot => do
    let text ← Cell.textIn record slot.column slot.index
    Cell.draw text slot.column slot.width slot.index

/-- The texts of the two groups of a line, side by side in the room between the decorations. The
right group keeps its place; slack is drawn with `fill`, and the left group gives up an overlap. -/
def joinGroups (inner : Int) (separator fill : Text) (left right : List Text) :
    Except MarkupError Text := do
  let leftText := Text.joined separator left
  if right.isEmpty then return leftText
  else
    let rightText := Text.joined separator right
    let rightWidth : Int := (← Markup.displayWidth rightText)
    if left.isEmpty then return Text.repeated fill (inner - rightWidth) ++ rightText
    else
      let separatorWidth : Int := (← Markup.displayWidth separator)
      let gap := inner - (← Markup.displayWidth leftText) - rightWidth
      if separatorWidth ≤ gap then
        return leftText ++ Text.repeated fill (gap - separatorWidth) ++ separator ++ rightText
      else
        let room := max (inner - rightWidth - separatorWidth) 0
        return (← Markup.padRight (← Markup.cut leftText room) room) ++ separator ++ rightText

/-- One line of a row: its groups between the decorations at its ends. Without a right group the
decorations need no measuring. -/
def joinLine (total : Int) (decorations : Decorations) (fill : Text) (left right : List Text) :
    Except MarkupError Text := do
  let inner ← if right.isEmpty then pure total
    else
      let leading ← Markup.displayWidth decorations.leading
      let trailing ← Markup.displayWidth decorations.trailing
      pure (total - leading - trailing)
  let body ← joinGroups inner decorations.separator fill left right
  return decorations.leading ++ body ++ decorations.trailing

/-- The lines at one height of the cells that keep to an anchor. -/
def groupLines (anchor : Anchor) (cells : List (Column × Cell)) (height : Nat) : List Text :=
  (cells.filter (·.1.anchor = anchor)).map (·.2.lineAt height)

/-- The number of lines of the tallest cell. -/
def height (cells : List Cell) : Nat :=
  (cells.map (·.lines.length)).foldl max 0

/-- The cells as lines of a row. -/
def assemble (formatter : Formatter) (cells : List Cell) (decorations : Decorations) (fill : Text) :
    Except LayoutError (List Text) :=
  let pairs := formatter.spec.columns.zip cells
  (List.range (height cells)).mapM fun position =>
    Markup.lift (joinLine formatter.total decorations fill (groupLines .left pairs position)
      (groupLines .right pairs position))

/-- The lines of a row with the decorations of the spec. -/
def assembleRow (formatter : Formatter) (cells : List Cell) : Except LayoutError (List Text) :=
  formatter.assemble cells formatter.spec.decorations [' ']

/-- The lines of a record. -/
def rowLines (formatter : Formatter) (record : Value) : Except LayoutError (List Text) := do
  if formatter.draws then formatter.assembleRow (← formatter.cells record) else return []

/-- A record as a single line. A cell of several lines is an error. -/
def row (formatter : Formatter) (record : Value) : Except LayoutError Text := do
  if formatter.draws then
    let cells ← formatter.cells record
    match (formatter.spec.columns.zip cells).zipIdx.find? (·.1.2.isMulti) with
    | some ((column, cell), index) =>
      let header := column.headerValue
      let shown ← (if header.truthy then header else .int index).quoted
      throw (.multiLine shown cell.lines.length)
    | none => return (← formatter.assembleRow cells).head?.getD []
  else return []

/-- The lines of some records one after another. -/
def rows (formatter : Formatter) (records : List Value) : Except LayoutError (List Text) :=
  return (← records.mapM formatter.rowLines).flatten

/-- Lines as one text, with line breaks between them. -/
def joinLines (lines : List Text) : Text :=
  Text.joined ['\n'] lines

/-- Some records as one text. -/
def render (formatter : Formatter) (records : List Value) : Except LayoutError Text :=
  return joinLines (← formatter.rows records)

/-- A column with its style replaced. A value that counts as a no stands for no style. -/
def restyle (style : Value) (column : Column) : Except LayoutError Column :=
  let source : Except LayoutError (Option StyleSource) :=
    match style.text? with
    | some [] => .ok none
    | some name => .ok (some (.named name))
    | none => if style.truthy then .error .unsuitable else .ok none
  source.bind fun source => ColumnLayout.check { column.toColumnLayout with style := source }

/-- The lines of the column headers, all in one style. -/
def headerLines (formatter : Formatter) (style : Value) : Except LayoutError (List Text) := do
  if formatter.draws then
    let slots ← formatter.slots.mapM fun slot =>
      return { slot with column := ← restyle style slot.column }
    let cells ← slots.mapM fun slot =>
      Cell.format slot.column.headerValue slot.column slot.width slot.index
    formatter.assembleRow cells
  else return []

/-- A horizontal rule in line with the columns: `fill` in place of content and slack, and the other
texts in place of the decorations. -/
def rule (formatter : Formatter) (fill : Text) (decorations : Decorations) :
    Except LayoutError Text := do
  if formatter.draws then
    let cells := formatter.slots.map fun slot =>
      ⟨slot.index, slot.width, [Text.repeated fill slot.width]⟩
    return (← formatter.assemble cells decorations fill).head?.getD []
  else return []

end Formatter

end TextGrid
