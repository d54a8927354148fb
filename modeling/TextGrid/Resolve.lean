import TextGrid.Cell
import TextGrid.Spec

/-!
# Column widths

Resolving a spec gives every column a width for one total width. Columns with a width of their own
are served first; if they do not fit beside the decorations, bounded columns give back width from
the right. What is left over is shared between the proportional columns.
-/

namespace TextGrid

/-- The width of each column for one total width. -/
structure Widths where
  widths : List Int
  total : Int
  deriving DecidableEq, Repr

namespace Widths

/-- The width of a column, if there is one at the position. -/
def get? (widths : Widths) (position : Int) : Option Int :=
  if position < 0 then none else widths.widths[position.toNat]?

/-- The sum of the column widths. -/
def sum (widths : Widths) : Int :=
  sumInt widths.widths

/-- The number of columns. -/
def length (widths : Widths) : Nat :=
  widths.widths.length

/-- The width of a column, where a negative position counts from the end. -/
def item (widths : Widths) (position : Int) : Except LayoutError Int :=
  itemFrom widths.widths position

end Widths

/-- The width of the widest content of each column, as far as it was measured. -/
abbrev Measured := Option (List Int)

namespace Measured

/-- The measured width of a column. -/
def at? (measured : Measured) (position : Nat) : Option Int :=
  measured.bind (·[position]?)

/-- Column by column the greater of two widths. -/
def widest (widths : List Int) (record : List Nat) : List Int :=
  widths.zipWith (fun width (next : Nat) => max width next) record

/-- The widths of the column headers. A header that is no text cannot be measured. -/
def headers (spec : Spec) : Except LayoutError (List Int) :=
  spec.columns.mapM fun column =>
    match column.headerValue.text? with
    | some header => do return ((← Markup.lift (Markup.displayWidth header)) : Nat)
    | none => .error (.ofNonText column.headerValue)

/-- The width of a column's text in a record. -/
def contentWidth (record : Value) (column : Column) (index : Nat) : Except LayoutError Nat := do
  Markup.lift (Markup.displayWidth (← Cell.textIn record column index))

/-- The widths of a record's texts. -/
def record (spec : Spec) (value : Value) : Except LayoutError (List Nat) :=
  spec.columns.zipIdx.mapM fun (column, index) => contentWidth value column index

/-- The width of the widest text of each column in some records and, if asked for, its header. -/
def ofRecords (spec : Spec) (records : List Value) (withHeaders : Bool) :
    Except LayoutError (List Int) := do
  let start ← if withHeaders then headers spec else pure (spec.columns.map fun _ => 0)
  records.foldlM (fun widths value => return widest widths (← record spec value)) start

end Measured

/-- What a column asks for when widths are given out. -/
inductive Demand
  /-- The width of its content, whatever there is room for. -/
  | content (width : Int)
  /-- A fixed width. -/
  | fixed (width : Int)
  /-- A width that may shrink, but not below the least one. -/
  | flexible (least wanted : Int)
  /-- Parts of what is left over. -/
  | share (parts : Int)
  deriving DecidableEq, Repr

/-- A width brought between bounds; the upper one counts if they cross. -/
def clamp (width least : Int) : Option Int → Int
  | none => max width least
  | some most => min (max width least) most

namespace Demand

/-- What a column asks for, given its measured width. A bounded column that was not measured asks
for its upper bound, or for its lower one if it has no other. -/
def ofColumn (column : Column) (measured : Option Int) : Demand :=
  if column.isExpand then content (measured.getD 0)
  else match column.width with
    | .fixed width => fixed width
    | .bounded least most =>
      let upper := WidthRule.upperCells? least most
      let lower := WidthRule.lowerCells least
      flexible lower (clamp (measured.getD (upper.getD lower)) lower upper)
    | .fraction parts => share parts
    | .fill => share 1

/-- What the columns of a spec ask for. -/
def ofSpec (spec : Spec) (measured : Measured) : List Demand :=
  spec.columns.zipIdx.map fun (column, index) => ofColumn column (measured.at? index)

/-- The width asked for; a share asks for none. -/
def wanted : Demand → Int
  | content width | fixed width => width
  | flexible _ wanted => wanted
  | share _ => 0

/-- The width that the total width must hold in any case. -/
def required : Demand → Int
  | fixed width => width
  | flexible least _ => least
  | content _ | share _ => 0

/-- Parts of what is left over. -/
def parts : Demand → Int
  | share parts => parts
  | _ => 0

/-- Whether the demand is a share of what is left over. -/
def isShare : Demand → Bool
  | share _ => true
  | _ => false

/-- The width that a demand gives back when `excess` cells are too many. -/
def given (excess : Int) : Demand → Int
  | flexible least wanted => if 0 < excess then min excess (wanted - least) else 0
  | _ => 0

end Demand

namespace Widths

/-- The widths asked for, less what bounded columns give back from the right, and the excess that is
left after that. -/
def giveBack (excess : Int) : List Demand → List Int × Int
  | [] => ([], excess)
  | demand :: later =>
    let (widths, left) := giveBack excess later
    ((demand.wanted - demand.given left) :: widths, left - demand.given left)

/-- One cell more for each of the first `count` widths. -/
def topUp : Nat → List Int → List Int
  | 0, widths => widths
  | _, [] => []
  | count + 1, width :: later => (width + 1) :: topUp count later

/-- Deals `count` cells out one at a time, round after round from the first width on. -/
def deal (count : Nat) (widths : List Int) : List Int :=
  if _h : count ≤ widths.length ∨ widths = [] then topUp count widths
  else deal (count - widths.length) (topUp widths.length widths)
termination_by count
decreasing_by
  have : 0 < widths.length := List.length_pos_iff.mpr (by simp_all)
  omega

/-- Shares of `remaining` cells for columns with these parts: whole units for each part, then the
cells left over one at a time. -/
def shares (remaining : Int) (parts : List Int) : List Int :=
  let unit := remaining / sumInt parts
  deal (remaining - unit * sumInt parts).toNat (parts.map (unit * ·))

/-- Puts shares into the places of the proportional columns. -/
def place : List Demand → List Int → List Int → List Int
  | .share _ :: demands, _ :: widths, share :: shares => share :: place demands widths shares
  | _ :: demands, width :: widths, shares => width :: place demands widths shares
  | _, widths, _ => widths

/-- Widths for some demands, with `room` cells beside the decorations. -/
def distribute (room : Int) (demands : List Demand) : List Int :=
  let excess := sumInt (demands.map Demand.wanted) - room
  let (widths, _) := giveBack excess demands
  let parts := (demands.filter Demand.isShare).map Demand.parts
  if parts.isEmpty then widths
  else place demands widths (shares (max (room - sumInt widths) 0) parts)

/-- The first column that is kept whole, stands beside proportional ones and was not measured. -/
def unmeasured? (spec : Spec) (measured : Measured) : Option Nat :=
  if spec.columns.any (·.isProportional) then
    (spec.columns.zipIdx.find? fun (column, index) =>
      column.isExpand && (measured.at? index).isNone).map (·.2)
  else none

/-- The widths of the columns for a total width. Without columns, or without a positive total width,
all widths are zero. Beside proportional columns, content that is kept whole must be measured, since
it would take their width. -/
def resolve (spec : Spec) (total : Int) (measured : Measured) : Except LayoutError Widths :=
  if spec.columns = [] ∨ total ≤ 0 then .ok ⟨spec.columns.map fun _ => 0, max total 0⟩
  else match unmeasured? spec measured with
    | some index => .error (.definition (.unmeasured index))
    | none =>
      let demands := Demand.ofSpec spec measured
      let required := sumInt (demands.map Demand.required)
      if total < required then .error (.insufficientWidth required total)
      else .ok ⟨distribute (total - spec.overhead) demands, total⟩

end Widths

end TextGrid
