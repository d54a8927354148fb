import TextGrid.Column
import TextGrid.Markup.Pad
import TextGrid.Markup.Wrap
import TextGrid.Value.Compact
import TextGrid.Value.Path

/-!
# Cells

A cell is one value drawn into the box of one column. Content that is too wide is cut, wrapped or
kept whole, as the column says. Style tags go around the content and padding goes outside of them,
on the side away from the column's anchor.
-/

namespace TextGrid

/-- One value drawn into the box of the column at `index`. -/
structure Cell where
  index : Int
  width : Int
  lines : List Text
  deriving DecidableEq, Repr

namespace Cell

/-- Whether the cell has more than one line. -/
def isMulti (cell : Cell) : Bool :=
  1 < cell.lines.length

/-- A line without content. -/
def blank (cell : Cell) : Text :=
  Text.spaces cell.width

/-- The first line. -/
def text (cell : Cell) : Text :=
  cell.lines.head?.getD cell.blank

/-- The line at a position, blank after the last one. -/
def lineAt (cell : Cell) (position : Nat) : Text :=
  cell.lines[position]?.getD cell.blank

end Cell

/-- The item at a position of a list, where a negative position counts from the end. -/
def itemFrom {α : Type} (items : List α) (position : Int) : Except LayoutError α :=
  let index := if position < 0 then position + items.length else position
  if index < 0 then .error .outOfRange
  else match items[index.toNat]? with
    | some item => .ok item
    | none => .error .outOfRange

/-- The line of a cell at a position, where a negative position counts from the end. -/
def Cell.line (cell : Cell) (position : Int) : Except LayoutError Text :=
  if position < cell.lines.length then itemFrom cell.lines position else .ok cell.blank

namespace Cell

/-- The items of a record that is a row of values, if it is one. -/
def rowItems? (value : Value) : Option (List Value) :=
  match value.bare with
  | .list items | .tuple items => some items
  | .buffer content => some (content.map fun byte => .int byte.toNat)
  | _ => none

/-- The value of a column in a record. A row is read by position; otherwise the key of the column
leads to the value, and a column without a key reads its name from a mapping. -/
def lookup (record : Value) (column : Column) (index : Int) : Except LayoutError Value :=
  match rowItems? record with
  | some items => if index < items.length then itemFrom items index else .ok .missing
  | none =>
    match column.key.bare, column.name, record.bare with
    | .text key, _, _ => Value.extract record (Value.splitPath key)
    | _, .null, _ => .ok .missing
    | _, name, .map entries => .ok ((Value.get? entries name).getD .missing)
    | _, _, _ => .ok .missing

/-- The text that a cell shows for a value. -/
def textOf : Value → Except LayoutError Text
  | .missing => .ok []
  | .text text => .ok text
  | value => do (← value.normalize).cellText

/-- The text of a column in a record. -/
def textIn (record : Value) (column : Column) (index : Int) : Except LayoutError Text := do
  textOf (← lookup record column index)

/-- Cuts a text to `width` cells at an edge and puts the marker there. A text that fits stays as it
is, and a marker wider than the box is left out. -/
def truncate (text : Text) (width : Int) (edge : Edge) (marker : Text) :
    Except MarkupError Text := do
  let spans ← Markup.parse text
  if Markup.spansWidth spans ≤ width then return text
  else
    let markerWidth ← Markup.displayWidth marker
    let (marker, markerWidth) := if markerWidth > width then ([], 0) else (marker, markerWidth)
    let keep : Int := max (width - markerWidth) 0
    match edge with
    | .start => return marker ++ Markup.join (Markup.takeSuffix spans keep).spans
    | .middle =>
      let head := Markup.takePrefix spans ((keep + 1) / 2)
      let tail := Markup.takeSuffix spans (keep - head.used)
      return Markup.join head.spans ++ marker ++ Markup.join tail.spans
    | .finish => return Markup.join (Markup.takePrefix spans keep).spans ++ marker

/-- The style of a cell that shows `text`. A text that is no tag name styles nothing. -/
def styleName? (column : Column) (text : Text) : Option Text :=
  match column.style with
  | some (.named name) => some name
  | some .fromValue => if Markup.isTagName text then some text else none
  | some (.nothing _) | none => none

/-- The content in its style. -/
def styled (content : Text) : Option Text → Text
  | none => content
  | some name => Markup.style content name

/-- Fills the content to `width` cells on the side away from the anchor. -/
def pad (anchor : Anchor) (content : Text) (width : Int) : Except MarkupError Text :=
  match anchor with
  | .left => Markup.padRight content width
  | .right => Markup.padLeft content width

/-- One line of a wrapped cell: the content after its lead, cut if a wide cluster sticks out. -/
def wrappedLine (anchor : Anchor) (tag : Option Text) (width : Int) (lead line : Text) :
    Except MarkupError Text := do
  let room := width - lead.length
  let body := line.drop lead.length
  let body ← if room < (← Markup.displayWidth body) then Markup.cut body room else pure body
  return lead ++ (← pad anchor (styled body tag) room)

/-- The lines of a wrapped cell. -/
def wrappedLines (anchor : Anchor) (tag : Option Text) (width indent : Int) (text : Text) :
    Except MarkupError (List Text) := do
  let indent := if indent < width then indent else 0
  let lead := Text.spaces indent
  match ← Markup.wrapIndent text width indent with
  | [] => return []
  | first :: later =>
    let first ← wrappedLine anchor tag width [] first
    return first :: (← later.mapM (wrappedLine anchor tag width lead))

/-- Cuts a text to `width` cells and puts a marker there that need only be a text if there is a
cut. -/
def truncateMarked (text : Text) (width : Int) (edge : Edge) (marker : Value) :
    Except LayoutError Text :=
  match marker.text? with
  | some marker => Markup.lift (truncate text width edge marker)
  | none => do
    let spans ← Markup.lift (Markup.parse text)
    if Markup.spansWidth spans ≤ width then return text else throw (.ofNonText marker)

/-- The number of spaces before the later lines of a wrapped cell. An indent that is a fraction
cannot be drawn; it does no harm where it is dropped for its width, or where there are no words. -/
def indentFor (text : Text) (width : Int) (indent : Value) : Except LayoutError Int :=
  match indent.bare with
  | .float _ => do
    let spans ← Markup.lift (Markup.parse text)
    let kept := indent.less? (.int width) == some true
    if kept && !(Markup.words spans).isEmpty then throw .unsuitable else return 0
  | _ => .ok (indent.floor?.getD 0)

/-- The lines of a cell in a box that its content has to keep to. -/
def boxLines (column : Column) (width : Int) (text : Text) : Except LayoutError (List Text) := do
  let tag := styleName? column text
  let line (content : Text) : Except LayoutError (List Text) := do
    return [← Markup.lift (pad column.anchor (styled content tag) width)]
  match column.overflow with
  | .wrap indent =>
    let indent ← indentFor text width indent
    Markup.lift (wrappedLines column.anchor tag width indent text)
  | .truncate edge marker => line (← truncateMarked text width edge marker)
  | .clip | .expand => line (← Markup.lift (truncate text width .finish []))

/-- A cell that is as wide as its content at least. -/
def drawWhole (column : Column) (width index : Int) (text : Text) : Except MarkupError Cell := do
  let content := styled text (styleName? column text)
  let box := max width (← Markup.displayWidth content)
  return ⟨index, box, [← pad column.anchor content box]⟩

/-- Draws a text into the box of a column. A box without cells shows nothing, and only the markup of
the text is checked. -/
def draw (text : Text) (column : Column) (width index : Int) : Except LayoutError Cell := do
  if column.isExpand then Markup.lift (drawWhole column width index text)
  else if width ≤ 0 then
    let _ ← Markup.lift (Markup.displayWidth text)
    return ⟨index, 0, [[]]⟩
  else return ⟨index, width, ← boxLines column width text⟩

/-- Draws a value into the box of a column. -/
def format (value : Value) (column : Column) (width index : Int) :
    Except LayoutError Cell := do
  draw (← textOf value) column width index

end Cell

end TextGrid
