import TextGrid.Settings
import TextGrid.Table

/-!
# Functions for templates

Templates call layout functions with values of any kind and leave most choices open. A `Template`
holds the settings that fill those in, and the cache of widths that all calls share.
-/

namespace TextGrid

/-- What the layout functions of a template have in common. -/
structure Template where
  settings : Settings
  /-- The total width where a call gives none. -/
  terminalWidth : Value
  cache : WidthCache

namespace Template

/-- A template with some settings, in an environment that gives the width of the terminal. -/
def make (settings : Settings) (environment : Settings.Environment) : Template :=
  let capacity := settings.cacheSize.floor?.getD WidthCache.defaultCapacity
  ⟨settings, settings.terminalWidth environment, WidthCache.empty capacity⟩

/-- The text of an argument. -/
def textOf : Value → Except LayoutError Text
  | .text text => .ok text
  | value => do (← value.normalize).cellText

/-- The marker of cut text: that of the call, else that of the settings. -/
def marker (template : Template) : Value → Value
  | .null => template.settings.truncateMarker
  | given => given

/-- The separator of columns: that of the call, else that of the settings. A setting that is no text
stands for none only if it counts as a no. -/
def separator (template : Template) (given : Option Text) : Except LayoutError Text :=
  match given <|> template.settings.separator.text? with
  | some separator => .ok separator
  | none =>
    let setting := template.settings.separator
    if setting.truthy then .error (.ofNonText setting) else .ok []

/-- A number of cells that a call gives. -/
def cellsOf (value : Value) : Except LayoutError Int :=
  match value.integer? with
  | some cells => .ok cells
  | none => .error .unsuitable

/-- The whole cells in a number that a call gives. -/
def wholeCellsOf (value : Value) : Except LayoutError Int :=
  match value.floor? with
  | some cells => .ok cells
  | none => .error .unsuitable

/-- The total width: that of the call, else that of the settings or the terminal. -/
def totalWidth (template : Template) : Value → Except LayoutError Int
  | .null => cellsOf template.terminalWidth
  | given => cellsOf given

/-- How a single value is drawn. -/
structure CellOptions where
  align : Value := .text Anchor.left.word
  truncate : Value := .text Edge.finish.word
  /-- The marker of cut text; null for that of the settings. -/
  marker : Value := .null
  style : Value := .null

/-- A value drawn into a box of its own. -/
def column (template : Template) (value width : Value) (options : CellOptions) :
    Except LayoutError Text := do
  let edge ← Edge.read options.truncate
  let anchor ← Anchor.read options.align
  let column ← ColumnLayout.check
    { overflow := .truncate edge (template.marker options.marker)
      anchor
      style := StyleSource.ofValue? options.style }
  let cell ← Cell.draw (← textOf value) column (← cellsOf width) 0
  return cell.text

/-- A value cut to a width at an edge. -/
def truncate (template : Template) (value width edge marker : Value) : Except LayoutError Text := do
  let edge ← Edge.read edge
  Cell.truncateMarked (← textOf value) (← wholeCellsOf width) edge (template.marker marker)

/-- A value filled to a width on one side or both. A part of a cell cannot be filled. -/
def padded (fill : Text → Int → Except MarkupError Text) (value width : Value) :
    Except LayoutError Text := do
  let text ← textOf value
  let used ← Markup.lift (Markup.displayWidth text)
  match width.bare with
  | .float _ =>
    if (Value.int used).less? width = some true then throw .unsuitable else return text
  | _ => Markup.lift (fill text (← cellsOf width))

/-- The lines of a wrapped value. Without words there is no need of a width. -/
def wrapped (value width indent : Value) : Except LayoutError (List Text) := do
  let spans ← Markup.lift (Markup.parse (← textOf value))
  if (Markup.words spans).isEmpty then return [[]]
  else return Markup.wrapSpans spans (← wholeCellsOf width) (← cellsOf indent)

/-- A value in a style. The name of the style is not looked at where there is nothing to style. -/
def styled (value name : Value) : Except LayoutError Text := do
  let text ← textOf value
  if text.isEmpty then return text else return Markup.style text (← name.plain)

/-- A value and a line break. -/
def line (value : Value) : Except LayoutError Text :=
  return (← textOf value) ++ ['\n']

/-- The columns of a call: a spec that is ready, or one column after another. -/
inductive Columns
  | spec (spec : Spec)
  | columns (sources : List Spec.ColumnSource)

/-- The columns that a value lists, each with its options. -/
def Columns.ofValue (value : Value) : Except LayoutError Columns :=
  match value.items? with
  | some items => .ok (columns (items.map .described))
  | none => .error .unsuitable

/-- The column of a source. Its options get the marker of the settings, unless they have one. -/
def columnOf (template : Template) : Spec.ColumnSource → Except LayoutError Column
  | .ready column => .ok column
  | .described options =>
    match options.bare with
    | .map entries =>
      if (Column.option? entries "marker").isSome then Column.ofOptions entries
      else Column.ofOptions
        (entries ++ [(.text "marker".toList, template.settings.truncateMarker)])
    | _ => .error .unsuitable

/-- The spec of a call. One that is ready keeps its own decorations. -/
def spec (template : Template) (columns : Columns) (separator : Option Text)
    (leading trailing : Text) : Except LayoutError Spec :=
  match columns with
  | .spec spec => .ok spec
  | .columns sources => do
    let columns ← sources.mapM template.columnOf
    Spec.make columns ⟨← template.separator separator, leading, trailing⟩

/-- How a formatter is made. -/
structure FormatterOptions where
  /-- The total width; null for that of the settings or the terminal. -/
  width : Value := .null
  separator : Option Text := none
  /-- Records to measure the columns on. -/
  records : Option (List Value) := none
  leading : Text := []
  trailing : Text := []

/-- A formatter for some columns. -/
def formatter (template : Template) (columns : Columns) (options : FormatterOptions) :
    Except LayoutError Formatter × Template :=
  let prepared : Except LayoutError (Spec × Int) := do
    let spec ← template.spec columns options.separator options.leading options.trailing
    return (spec, ← template.totalWidth options.width)
  match prepared with
  | .error e => (.error e, template)
  | .ok (spec, width) =>
    let (formatter, cache) := match options.records with
      | some records => Formatter.forRecords template.cache spec width records false
      | none => Formatter.bind template.cache spec width none
    (formatter, { template with cache })

/-- How a table is drawn. -/
structure TableOptions where
  /-- The total width; null for that of the settings or the terminal. -/
  width : Value := .null
  /-- The border; one that counts as a no is that of the settings. -/
  border : Value := .null
  header : Bool := true
  headerStyle : Value := .null
  footer : Option Value := none
  rowSeparator : Bool := false
  separator : Option Text := none
  borderTag : Value := .null

/-- A table over some records as one text. -/
def table (template : Template) (columns : Columns) (records : List Value)
    (options : TableOptions) : Except LayoutError Text × Template :=
  let prepared : Except LayoutError Table := do
    let spec ← template.spec columns options.separator [] []
    let width ← template.totalWidth options.width
    let border ← BorderStyle.read
      (if options.border.truthy then options.border else template.settings.border)
    Table.make spec width
      { border
        header := options.header
        headerStyle := options.headerStyle
        footer := options.footer
        rowSeparator := options.rowSeparator
        borderTag := options.borderTag }
  match prepared with
  | .error e => (.error e, template)
  | .ok table =>
    let (text, cache) := table.render template.cache records
    (text, { template with cache })

end Template

end TextGrid
