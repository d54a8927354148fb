import TextGrid.Column

/-!
# Columns from options

A column can be written as a mapping of options. Options that a column does not have are refused
first, then the options are read in a fixed order, and last the column is checked as a whole.
-/

namespace TextGrid.Column

/-- The names of all options. -/
def optionNames : List String :=
  ["key", "name", "header", "width", "overflow", "truncate", "marker", "indent", "anchor", "align",
    "style", "style_from_value"]

/-- Options as the entries of a mapping. -/
abbrev Options := List (Value × Value)

/-- The value of an option, if it is given. -/
def option? (options : Options) (name : String) : Option Value :=
  Value.getText? options name.toList

/-- Whether a key is the name of an option. -/
def isOptionName (key : Value) : Bool :=
  key.text?.any fun name => optionNames.contains (String.ofList name)

/-- Refuses keys that name no option, listing them in order. -/
def checkNames (options : Options) : Except LayoutError Unit :=
  match (options.map (·.1)).filter (!isOptionName ·) with
  | [] => .ok ()
  | unknown =>
    match Value.sorted? unknown with
    | some sorted => do throw (.definition (.unknownOptions (← (Value.list sorted).quoted)))
    | none => .error .unsuitable

/-- The overflow rule that the options choose. Options of other rules are not looked at. -/
def readOverflow (options : Options) : Except LayoutError Overflow := do
  let kind := (option? options "overflow").getD (.text "truncate".toList)
  let word := String.ofList (kind.text?.getD [])
  if word == "truncate" then
    let edge ← Edge.read ((option? options "truncate").getD (.text Edge.finish.word))
    return .truncate edge ((option? options "marker").getD (.text defaultMarker))
  else if word == "wrap" then return .wrap ((option? options "indent").getD (.int 0))
  else if word == "clip" then return .clip
  else if word == "expand" then return .expand
  else throw (.definition (.unknownOverflow (← kind.quoted)))

/-- The style that the options choose. -/
def readStyle (options : Options) : Option StyleSource :=
  if ((option? options "style_from_value").getD .null).truthy then some .fromValue
  else StyleSource.ofValue? ((option? options "style").getD .null)

/-- The column that options describe, if their names are checked. -/
def readOptions (options : Options) : Except LayoutError Column := do
  let width ← WidthRule.read ((option? options "width").getD .null)
  let overflow ← readOverflow options
  let anchor ← Anchor.read ((option? options "anchor").getD
    ((option? options "align").getD (.text Anchor.left.word)))
  ColumnLayout.check
    { key := (option? options "key").getD .null
      name := (option? options "name").getD .null
      header := (option? options "header").getD .null
      width := width.getD (ColumnLayout.defaultWidth overflow)
      overflow
      anchor
      style := readStyle options }

/-- The column that options describe. -/
def ofOptions (options : Options) : Except LayoutError Column := do
  checkNames options
  (readOptions options).mapError LayoutError.inDefinition

/-- The column that a value describes. What can be gone through but is no mapping is taken for names
of options, of which it has no values. -/
def ofValue (value : Value) : Except LayoutError Column :=
  match value.bare with
  | .map entries => ofOptions entries
  | other =>
    match other.items? with
    | none => .error .unsuitable
    | some items => do
      checkNames ((Value.distinct items).map fun item => (item, .null))
      throw .lacking

end TextGrid.Column
