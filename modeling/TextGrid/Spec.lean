import TextGrid.Column.Options
import TextGrid.Markup.Slice

/-!
# Table specs

A spec is the columns of a table in order, with the texts between and around them. These decorations
are well-nested markup by construction, so that they always have a width.
-/

namespace TextGrid

/-- The texts between and around the columns of a row. -/
structure Decorations where
  /-- Between neighbouring columns. -/
  separator : Text := [' ']
  /-- Before the first column. -/
  leading : Text := []
  /-- After the last column. -/
  trailing : Text := []
  deriving DecidableEq, Repr

namespace Decorations

/-- A decoration by its place. -/
def part (decorations : Decorations) : Decoration → Text
  | .separator => decorations.separator
  | .leading => decorations.leading
  | .trailing => decorations.trailing

/-- The fault of one decoration. -/
def partFault? (decorations : Decorations) (part : Decoration) : Option DefinitionFault :=
  match Markup.displayWidth (decorations.part part) with
  | .ok _ => none
  | .error fault => some (.decoration part fault)

/-- The first fault of the decorations. -/
def fault? (decorations : Decorations) : Option DefinitionFault :=
  decorations.partFault? .separator <|> decorations.partFault? .leading <|>
    decorations.partFault? .trailing

/-- A single space between columns, and nothing around them, is no fault. -/
theorem fault?_default : ({} : Decorations).fault? = none :=
  rfl

end Decorations

/-- The columns of a table and the decorations of its rows. -/
structure Spec where
  columns : List Column
  decorations : Decorations
  sound : decorations.fault? = none
  whole : columns.all (·.width.isWhole) = true

namespace Spec

/-- The spec with these columns and decorations, if the decorations have no fault. Columns with
fractions for bounds are refused at once, since no line can be drawn with a part of a cell. -/
def make (columns : List Column) (decorations : Decorations) : Except LayoutError Spec :=
  match sound : decorations.fault? with
  | none =>
    if whole : columns.all (·.width.isWhole) = true then .ok { columns, decorations, sound, whole }
    else .error .unsuitable
  | some fault => .error (.definition fault)

/-- A column that is ready, or a value that describes one. -/
inductive ColumnSource
  | ready (column : Column)
  | described (options : Value)

/-- The column that a source stands for. -/
def ColumnSource.column : ColumnSource → Except LayoutError Column
  | ready column => .ok column
  | described options => Column.ofValue options

/-- The spec with the columns of these sources. -/
def ofSources (sources : List ColumnSource) (decorations : Decorations) :
    Except LayoutError Spec := do
  make (← sources.mapM ColumnSource.column) decorations

/-- Whether two specs have equal columns in the same order, and the same decorations. -/
def same (a b : Spec) : Bool :=
  a.columns.length == b.columns.length &&
    (a.columns.zip b.columns).all (fun (a, b) => a.toColumnLayout.same b.toColumnLayout) &&
    a.decorations == b.decorations

/-- The number of columns. -/
def length (spec : Spec) : Nat :=
  spec.columns.length

/-- Cells that a decoration takes. -/
def partWidth (spec : Spec) (part : Decoration) : Nat :=
  match Markup.displayWidth (spec.decorations.part part) with
  | .ok width => width
  | .error _ => 0

/-- Cells of a row that decorations take. A spec without columns has no rows to decorate. -/
def overhead (spec : Spec) : Nat :=
  if spec.columns.isEmpty then 0
  else spec.partWidth .leading + spec.partWidth .trailing +
    spec.partWidth .separator * (spec.columns.length - 1)

/-- The same columns with some decorations replaced. -/
def withDecorations (spec : Spec) (separator leading trailing : Option Text) :
    Except LayoutError Spec :=
  make spec.columns
    { separator := separator.getD spec.decorations.separator
      leading := leading.getD spec.decorations.leading
      trailing := trailing.getD spec.decorations.trailing }

end Spec

end TextGrid
