import TextGrid.Column.Overflow
import TextGrid.Column.Width

/-!
# Columns

A column is one slot of a table: where its value comes from, how wide it is, what happens to content
that does not fit, and how it looks. A `Column` is sound by construction; `ColumnLayout.check`
refuses a layout with the first fault found in it.
-/

namespace TextGrid

/-- What is wrong with a column. -/
inductive ColumnFault
  | negativeWidth
  | negativeMinimum
  | crossedBounds (least most : Value)
  | noParts
  | proportionalExpand
  | negativeIndent
  | invalidStyle (name : Text)
  | emptySegment (key : Value)
  /-- A bound or an indent is no number, or a key is bytes. -/
  | unsuitable
  /-- The key is neither text nor bytes. -/
  | keyNotText
  deriving Repr

namespace ColumnFault

/-- The wording of a fault. Values of a wrong kind have none. -/
def message : ColumnFault → Except LayoutError String
  | negativeWidth => .ok "fixed width must be >= 0"
  | negativeMinimum => .ok "minimum width must be >= 0"
  | crossedBounds least most =>
    return "minimum width " ++ String.ofList (← least.plain) ++ " exceeds maximum " ++
      String.ofList (← most.plain)
  | noParts => .ok "fraction parts must be >= 1"
  | proportionalExpand => .ok "expand columns cannot use proportional widths"
  | negativeIndent => .ok "wrap indent must be >= 0"
  | invalidStyle name => .ok ("invalid style name " ++ String.ofList (Text.quoted name))
  | emptySegment key => return "empty segment in key " ++ String.ofList (← key.quoted)
  | unsuitable | keyNotText => .ok ""

/-- The error about a fault of the column that is called by `label`. A fault that cannot be worded
is the error of wording it. -/
def error (label : Value) (fault : ColumnFault) : LayoutError :=
  match fault with
  | unsuitable => .unsuitable
  | keyNotText => .lacking
  | fault =>
    let worded : Except LayoutError DefinitionFault :=
      return .column (← label.plain) (← fault.message)
    match worded with
    | .ok worded => .definition worded
    | .error unworded => unworded

end ColumnFault

/-- The side of the table that a column keeps to. -/
inductive Anchor
  | left
  | right
  deriving DecidableEq, Repr

/-- Where the style of a cell comes from. -/
inductive StyleSource
  | named (name : Text)
  /-- The text of the cell is the name of its style. -/
  | fromValue
  /-- A value that is no name of a style. The cell has none. -/
  | nothing (value : Value)
  deriving Repr

namespace Anchor

/-- The word for an anchor. -/
def word : Anchor → Text
  | left => ['l', 'e', 'f', 't']
  | right => ['r', 'i', 'g', 'h', 't']

/-- The anchor that a word names. -/
def ofWord? (word : Text) : Option Anchor :=
  if word = left.word then some left
  else if word = right.word then some right
  else none

/-- The anchor that a value names. -/
def read (value : Value) : Except LayoutError Anchor := do
  match value.text?.bind ofWord? with
  | some anchor => return anchor
  | none => throw (.invalidChoice .anchor (← value.quoted))

end Anchor

namespace StyleSource

/-- The style source that a value gives; null gives none. -/
def ofValue? (value : Value) : Option StyleSource :=
  match value.bare with
  | .null => none
  | .text name => some (named name)
  | _ => some (nothing value)

/-- Whether two style sources are equal. -/
def same : StyleSource → StyleSource → Bool
  | named a, named b => a == b
  | fromValue, fromValue => true
  | nothing a, nothing b => a.same b
  | _, _ => false

end StyleSource

/-- The fields of a column as given, not yet checked. Null stands for a field that is not given. -/
structure ColumnLayout where
  /-- The path to the value in a record. -/
  key : Value := .null
  /-- The name of the column, and the key of its value in records that are mappings. -/
  name : Value := .null
  /-- What is shown above the column. -/
  header : Value := .null
  width : WidthRule := .fill
  overflow : Overflow := .standard
  anchor : Anchor := .left
  style : Option StyleSource := none
  deriving Repr

namespace ColumnLayout

/-- The first of some values that counts as a yes, or else the last resort. -/
def firstOf (values : List Value) (otherwise : Text) : Value :=
  (values.find? (·.truthy)).getD (.text otherwise)

/-- What messages call the column. -/
def label (layout : ColumnLayout) : Value :=
  firstOf [layout.name, layout.key] ['c', 'o', 'l', 'u', 'm', 'n']

/-- What is shown above the column: its header, else its name, else its key. -/
def headerValue (layout : ColumnLayout) : Value :=
  firstOf [layout.header, layout.name, layout.key] []

/-- Whether the width is a share of what other columns leave. -/
def isProportional (layout : ColumnLayout) : Bool :=
  layout.width.parts?.isSome

/-- Whether content is kept whole. -/
def isExpand (layout : ColumnLayout) : Bool :=
  layout.overflow.isExpand

/-- Whether two layouts are equal in each field. -/
def same (a b : ColumnLayout) : Bool :=
  a.key.same b.key && a.name.same b.name && a.header.same b.header && a.width.same b.width &&
    a.overflow.same b.overflow && a.anchor == b.anchor &&
    match a.style, b.style with
    | none, none => true
    | some a, some b => a.same b
    | _, _ => false

/-- What is wrong with bounds of the width. -/
def boundsFault? (least most : Value) : Option ColumnFault :=
  match least.less? (.int 0), most with
  | none, _ => some .unsuitable
  | some true, _ => some .negativeMinimum
  | some false, .null => none
  | some false, most =>
    match most.less? least with
    | none => some .unsuitable
    | some true => some (.crossedBounds least most)
    | some false => none

/-- What is wrong with the width. -/
def widthFault? (layout : ColumnLayout) : Option ColumnFault :=
  match layout.width with
  | .fixed width => if width < 0 then some .negativeWidth else none
  | .bounded least most => boundsFault? least most
  | .fraction parts => if parts < 1 then some .noParts else none
  | .fill => none

/-- What is wrong with the overflow rule. -/
def overflowFault? (layout : ColumnLayout) : Option ColumnFault :=
  match layout.overflow with
  | .expand => if layout.isProportional then some .proportionalExpand else none
  | .wrap indent =>
    match indent.less? (.int 0) with
    | none => some .unsuitable
    | some true => some .negativeIndent
    | some false => none
  | _ => none

/-- What is wrong with the style. -/
def styleFault? (layout : ColumnLayout) : Option ColumnFault :=
  match layout.style with
  | some (.named name) => if Markup.isTagName name then none else some (.invalidStyle name)
  | _ => none

/-- What is wrong with the key. -/
def keyFault? (layout : ColumnLayout) : Option ColumnFault :=
  match layout.key.bare with
  | .null => none
  | .text key =>
    if (Text.splitAt '.' key).contains [] then some (.emptySegment layout.key) else none
  | .bytes _ | .buffer _ => some .unsuitable
  | _ => some .keyNotText

/-- The first fault of a layout. -/
def fault? (layout : ColumnLayout) : Option ColumnFault :=
  layout.widthFault? <|> layout.overflowFault? <|> layout.styleFault? <|> layout.keyFault?

end ColumnLayout

/-- A column whose layout has no fault. -/
structure Column extends ColumnLayout where
  sound : toColumnLayout.fault? = none

namespace ColumnLayout

/-- The layout as a column, if it has no fault. -/
def check (layout : ColumnLayout) : Except LayoutError Column :=
  match h : layout.fault? with
  | none => .ok ⟨layout, h⟩
  | some fault => .error (fault.error layout.label)

/-- The width rule of a column that is given none: the whole content if it is kept whole, else one
part of the width left over. -/
def defaultWidth : Overflow → WidthRule
  | .expand => .bounded (.int 0) .null
  | _ => .fill

end ColumnLayout

end TextGrid
