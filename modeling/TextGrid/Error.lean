import TextGrid.Markup.Parse
import TextGrid.Number.Decimal

/-!
# Errors of layout

Each error is a cause with the facts that its wording needs; `LayoutError.message` words it.
-/

namespace TextGrid

/-- A set of words that a setting is chosen from. -/
inductive Choice
  | anchor
  | edge
  | border
  deriving DecidableEq, Repr

/-- The name of a set of words in messages. -/
def Choice.name : Choice → String
  | anchor => "Anchor"
  | edge => "TruncateAt"
  | border => "BorderStyle"

/-- A text that stands around or between the columns of a row. -/
inductive Decoration
  | separator
  | leading
  | trailing
  deriving DecidableEq, Repr

/-- The name of a decoration in messages. -/
def Decoration.name : Decoration → String
  | separator => "separator"
  | leading => "prefix"
  | trailing => "suffix"

/-- What is wrong with a definition. Offending values are kept in their displayed form. -/
inductive DefinitionFault
  /-- A column, called by its label, is wrong in what `problem` words. -/
  | column (label : Text) (problem : String)
  | unknownOptions (shown : Text)
  | invalidWidth (shown : Text)
  | unknownOverflow (shown : Text)
  | invalidChoice (choice : Choice) (shown : Text)
  | tooManyDigits (digits : Nat)
  | unwritable
  | decoration (part : Decoration) (fault : MarkupError)
  | unmeasured (index : Nat)
  deriving DecidableEq, Repr

/-- The wording of a word outside its set. -/
def invalidChoiceMessage (choice : Choice) (shown : Text) : String :=
  String.ofList shown ++ " is not a valid " ++ choice.name

/-- The wording of a number with more digits than are read. -/
def tooManyDigitsMessage (digits : Nat) : String :=
  "Exceeds the limit (" ++ toString Decimal.maxDigits ++ " digits) for integer string " ++
    "conversion: value has " ++ toString digits ++ " digits; use sys.set_int_max_str_digits() " ++
    "to increase the limit"

/-- The wording of an integer with more digits than are written. -/
def unwritableMessage : String :=
  "Exceeds the limit (" ++ toString Decimal.maxDigits ++ " digits) for integer string " ++
    "conversion; use sys.set_int_max_str_digits() to increase the limit"

/-- The wording of a faulty definition. -/
def DefinitionFault.message : DefinitionFault → String
  | column label problem => String.ofList label ++ ": " ++ problem
  | unknownOptions shown => "unknown column options: " ++ String.ofList shown
  | invalidWidth shown => "invalid width: " ++ String.ofList shown
  | unknownOverflow shown => "unknown overflow policy: " ++ String.ofList shown
  | invalidChoice choice shown => invalidChoiceMessage choice shown
  | tooManyDigits digits => tooManyDigitsMessage digits
  | unwritable => unwritableMessage
  | decoration part fault => part.name ++ ": " ++ fault.message
  | unmeasured index =>
    "column " ++ toString index ++ ": expand column beside fraction columns needs " ++
      "measured widths (use for_rows or pass rows)"

/-- Why a layout operation has no result. -/
inductive LayoutError
  /-- A column, a spec or a table is defined wrongly. -/
  | definition (fault : DefinitionFault)
  /-- A text has tags that are not well nested. -/
  | markup (fault : MarkupError)
  /-- Fixed and least widths together exceed the total width. -/
  | insufficientWidth (required available : Int)
  /-- A word is not in the set that it is to be chosen from. -/
  | invalidChoice (choice : Choice) (shown : Text)
  /-- A number is written with more digits than are read. -/
  | tooManyDigits (digits : Nat)
  /-- An integer has more digits than are written. -/
  | unwritable
  /-- A cell of several lines stands in a row that must be one line. The column is shown by its
  header or its position. -/
  | multiLine (shown : Text) (lines : Nat)
  /-- A position is outside a sequence. -/
  | outOfRange
  /-- A cache of negative capacity has nothing left to evict. -/
  | exhausted
  /-- The home directory is not known. -/
  | homeless
  /-- A value is of a kind that an operation does not take. -/
  | unsuitable
  /-- A value lacks what an operation asks of it. -/
  | lacking
  /-- A text is nested deeper than is read. -/
  | tooDeep
  deriving DecidableEq, Repr

namespace LayoutError

/-- The wording of an error. Some causes have none. -/
def message : LayoutError → String
  | definition fault => fault.message
  | markup fault => fault.message
  | insufficientWidth required available =>
    "table needs at least " ++ toString required ++ " columns of width, got " ++ toString available
  | invalidChoice choice shown => invalidChoiceMessage choice shown
  | tooManyDigits digits => tooManyDigitsMessage digits
  | unwritable => unwritableMessage
  | multiLine shown lines =>
    "column " ++ String.ofList shown ++ " spans " ++ toString lines ++ " lines; use row_lines()"
  | outOfRange | exhausted | homeless | unsuitable | lacking | tooDeep => ""

/-- The same error as part of a definition: a word outside its set, and a number that cannot be read
or written, make the definition wrong. -/
def inDefinition : LayoutError → LayoutError
  | invalidChoice choice shown => definition (.invalidChoice choice shown)
  | tooManyDigits digits => definition (.tooManyDigits digits)
  | unwritable => definition .unwritable
  | other => other

end LayoutError

/-- A markup result as a layout result. -/
def Markup.lift {α : Type} : Except MarkupError α → Except LayoutError α :=
  Except.mapError LayoutError.markup

end TextGrid
