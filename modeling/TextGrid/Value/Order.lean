import TextGrid.Text.Quoted
import TextGrid.Value

/-!
# Order of values

Numbers are ordered by size, texts by code points, bytes by their numbers, rows by their first
unequal items, and a set comes before a larger one that holds all its members. Values of other
kinds, and of two different kinds, have no order.
-/

namespace TextGrid.Value

/-- Where a number lies: past all finite numbers on either side, or among them at a fraction. A
number that is none has no place. -/
def place? : Value → Option (Int × Int × Nat)
  | float (.infinite negative) => some (if negative then -1 else 1, 0, 1)
  | dressed value _ => place? value
  | value => value.fraction?.map fun (numerator, denominator) => (0, numerator, denominator)

/-- Whether a value is a number of any kind. -/
def isNumber : Value → Bool
  | bool _ | int _ | float _ => true
  | dressed value _ => isNumber value
  | _ => false

/-- Whether one number is less than another. Nothing is less than a number that is none, nor the
other way round; values of other kinds cannot be asked. -/
def less? (a b : Value) : Option Bool :=
  if a.isNumber && b.isNumber then
    match a.place?, b.place? with
    | some (side, m, p), some (other, n, q) =>
      some (side < other || (side == other && m * q < n * p))
    | _, _ => some false
  else none

/-- Integers are compared by size. -/
@[simp] theorem less?_int (a b : Int) : less? (int a) (int b) = some (decide (a < b)) := by
  simp [less?, isNumber, place?, fraction?]

mutual

/-- Whether one value comes before another; `none` if they have no order. -/
def before? (a b : Value) : Option Bool :=
  match a, b.bare with
  | dressed a _, b => before? a b
  | text a, text b => some (!Text.precedes b a)
  | bytes a, bytes b => some (!Text.precedes (Text.ofBytes b) (Text.ofBytes a))
  | list as, list bs | tuple as, tuple bs => itemsBefore? as bs
  | set as, set bs | set as, frozenSet bs | frozenSet as, set bs | frozenSet as, frozenSet bs =>
    some (as.length < bs.length && allAmong as bs)
  | a, b => less? a b
termination_by structural a

/-- Whether one row of values comes before another. A row comes before its continuations. -/
def itemsBefore? : List Value → List Value → Option Bool
  | [], bs => some (!bs.isEmpty)
  | _ :: _, [] => some false
  | a :: as, b :: bs => if same a b then itemsBefore? as bs else before? a b
termination_by structural first => first

end

/-- Whether each two of some values have an order. -/
def allOrdered : List Value → Bool
  | [] => true
  | a :: rest => rest.all (fun b => (before? a b).isSome) && allOrdered rest

/-- The values in order, if they have one; equal values keep their places. -/
def sorted? (values : List Value) : Option (List Value) :=
  if allOrdered values then some (values.mergeSort fun a b => before? b a != some true) else none

end TextGrid.Value
