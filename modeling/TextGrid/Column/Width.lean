import TextGrid.Value.Display

/-!
# Width rules

A column has a fixed width, a width between bounds, or a share of the width that other columns
leave. Rules have a shorthand: `8`, `fill`, `2fr`, or a mapping with `min` and `max`.
-/

namespace TextGrid

/-- How wide a column is to be. Numbers are kept as given; `Column` checks them. -/
inductive WidthRule
  /-- Exactly this many cells. -/
  | fixed (width : Int)
  /-- As wide as the content, within bounds; there is no upper bound if `most` is null. -/
  | bounded (least most : Value)
  /-- This many parts of the width left over. -/
  | fraction (parts : Int)
  /-- One part of the width left over. -/
  | fill
  deriving Repr

namespace WidthRule

/-- Parts of the width left over, if the rule is a share. -/
def parts? : WidthRule → Option Int
  | fraction parts => some parts
  | fill => some 1
  | _ => none

/-- Whether two rules are equal. One part of the width left over is not the same rule as `fill`. -/
def same : WidthRule → WidthRule → Bool
  | fixed a, fixed b => a == b
  | bounded least most, bounded least' most' => least.same least' && most.same most'
  | fraction a, fraction b => a == b
  | fill, fill => true
  | _, _ => false

/-- Whether the bounds are integers. A column that shares a table with others is whole cells
wide. -/
def isWhole : WidthRule → Bool
  | bounded least most => least.integer?.isSome && (most.isNull || most.integer?.isSome)
  | _ => true

/-- The cells of a lower bound. Those of a spec are integers, so that nothing is rounded. -/
def lowerCells (least : Value) : Int :=
  least.floor?.getD 0

/-- The cells of an upper bound, if there is one. It is never below the lower one. -/
def upperCells? (least most : Value) : Option Int :=
  most.floor?.map (max (lowerCells least))

/-- A lower bound that is an integer is that many cells. -/
@[simp] theorem lowerCells_int (least : Int) : lowerCells (.int least) = least := by
  simp [lowerCells]

/-- Null is no upper bound. -/
@[simp] theorem upperCells?_null (least : Value) : upperCells? least .null = none :=
  rfl

/-- The rule that a text of digits writes by way of its number. -/
def ofDigits (rule : Int → WidthRule) (digits : Text) : Except LayoutError (Option WidthRule) :=
  match Decimal.read digits with
  | .number value => .ok (some (rule value))
  | .tooLong count => .error (.tooManyDigits count)
  | .other => .ok none

/-- The shorthand of a share: digits, then `fr`. -/
def readFraction (text : Text) : Except LayoutError (Option WidthRule) :=
  match text.reverse with
  | 'r' :: 'f' :: digits => ofDigits fraction digits.reverse
  | _ => .ok none

/-- A shorthand text as a rule, if it is one. Blanks around it and capitals do not matter. -/
def readText (text : Text) : Except LayoutError (Option WidthRule) := do
  let word := (Text.trim text).lower
  if word = ['f', 'i', 'l', 'l'] then return some fill
  else match ← ofDigits fixed word with
    | some rule => return some rule
    | none => readFraction word

/-- A mapping with no keys but `min` and `max` as a rule. A lower bound that counts as a no is
zero. -/
def readBounds? (entries : List (Value × Value)) : Option WidthRule :=
  let known (key : Value) : Bool :=
    key.text? == some ['m', 'i', 'n'] || key.text? == some ['m', 'a', 'x']
  if entries.all fun entry => known entry.1 then
    let least := (Value.getText? entries ['m', 'i', 'n']).getD .null
    let most := (Value.getText? entries ['m', 'a', 'x']).getD .null
    some (bounded (if least.truthy then least else .int 0) most)
  else none

/-- The rule that a value stands for in shorthand; null stands for none. -/
def read (value : Value) : Except LayoutError (Option WidthRule) := do
  let rule? ← match value.bare with
    | .int width => pure (some (fixed width))
    | .text text => readText text
    | .map entries => pure (readBounds? entries)
    | _ => pure none
  match value, rule? with
  | .null, _ => return none
  | _, some rule => return some rule
  | _, none => throw (.definition (.invalidWidth (← value.quoted)))

end WidthRule

end TextGrid
