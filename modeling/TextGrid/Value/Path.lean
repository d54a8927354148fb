import TextGrid.Error
import TextGrid.Value.Normalize

/-!
# Paths into records

A path is a list of segments, written with dots between them. Mappings are entered by key and
sequences by position; other containers are entered in their normal form. A position with more
digits than are read is an error, but only where a sequence is entered, and so is a key that cannot
be written, but only where it is compared with a segment.
-/

namespace TextGrid.Value

/-- The segments of a written path. -/
def splitPath (key : Text) : List Text :=
  Text.splitAt '.' key

/-- The value of the first entry whose key has a text as its plain form. The keys are written one
after another up to that one. -/
def spelledValue? : List (Value × Value) → Text → Except LayoutError (Option Value)
  | [], _ => .ok none
  | (key, value) :: rest, segment => do
    if (← plain key) = segment then return some value else spelledValue? rest segment

/-- The value under a segment of a mapping: that of a key which equals the segment, else that of the
first key with this plain form. -/
def keyedValue? (entries : List (Value × Value)) (segment : Text) :
    Except LayoutError (Option Value) :=
  match getText? entries segment with
  | some value => .ok (some value)
  | none => spelledValue? entries segment

/-- The item of a sequence at the position that a segment writes in decimal digits. -/
def item? (items : List Value) (segment : Text) : Except LayoutError (Option Value) :=
  match Decimal.read segment with
  | .number position => .ok items[position]?
  | .tooLong digits => .error (.tooManyDigits digits)
  | .other => .ok none

/-- The value one segment below another. Scalars, texts and bytes have none. -/
def child? : Value → Text → Except LayoutError (Option Value)
  | map entries, segment => keyedValue? entries segment
  | list items, segment | tuple items, segment => item? items segment
  | null, _ | bool _, _ | int _, _ | float _, _ | text _, _ | bytes _, _ | buffer _, _ => .ok none
  | dressed value _, segment => child? value segment
  | other, segment => do
    match ← normalize other with
    | map entries => keyedValue? entries segment
    | list items => item? items segment
    | _ => return none

/-- The normal form of the value at the end of a path, `missing` where the path leads nowhere. -/
def extract : Value → List Text → Except LayoutError Value
  | value, [] => normalize value
  | value, segment :: rest =>
    match child? value segment with
    | .error e => .error e
    | .ok none | .ok (some missing) => .ok missing
    | .ok (some next) => extract next rest

end TextGrid.Value
