import TextGrid.Column

/-!
# Layout settings

Settings are the defaults for what a caller leaves open. They come from a mapping, usually the
content of a settings file, and from variables of the environment, which count for more. Values are
taken as they are; what cannot be used is told in warnings.
-/

namespace TextGrid

/-- Defaults for what a caller leaves open. -/
structure Settings where
  /-- The total width, or null for that of the terminal. -/
  defaultWidth : Value := .null
  truncateMarker : Value := .text defaultMarker
  border : Value := .text "light".toList
  separator : Value := .text [' ']
  /-- The capacity of the width cache. -/
  cacheSize : Value := .int 128

namespace Settings

/-- The names of all settings. -/
def names : List String :=
  ["default_width", "truncate_marker", "border", "separator", "cache_size"]

/-- The settings with one more of them given. -/
def set (settings : Settings) (name : String) (value : Value) : Settings :=
  match name with
  | "default_width" => { settings with defaultWidth := value }
  | "truncate_marker" => { settings with truncateMarker := value }
  | "border" => { settings with border := value }
  | "separator" => { settings with separator := value }
  | "cache_size" => { settings with cacheSize := value }
  | _ => settings

/-- The warning about keys that are no settings, in order. Only texts can be listed in it. -/
def unknownWarning (unknown : List Value) : Except LayoutError String := do
  let some sorted := Value.sorted? unknown | throw .unsuitable
  let listed ← sorted.mapM fun key =>
    match key.text? with
    | some name => .ok (String.ofList name)
    | none => .error .unsuitable
  return "Ignoring unknown layout settings: " ++ String.intercalate ", " listed

/-- Whether a key is the name of a setting. -/
def isName (key : Value) : Bool :=
  key.text?.any fun name => names.contains (String.ofList name)

/-- The settings in a mapping, and a warning if it has other keys. -/
def ofEntries (entries : List (Value × Value)) : Except LayoutError (Settings × List String) := do
  let settings := entries.foldl (fun found (key, value) =>
    match key.text? with
    | some name => found.set (String.ofList name) value
    | none => found) {}
  match (entries.map (·.1)).filter (!isName ·) with
  | [] => return (settings, [])
  | unknown => return (settings, [← unknownWarning unknown])

/-- The warning that a settings file cannot be read. -/
def unreadableWarning : String :=
  "Error reading layout settings"

/-- Variables of the environment with their values. -/
abbrev Environment := List (String × String)

/-- The settings with the total width that the environment gives. -/
def applyWidth (environment : Environment) (settings : Settings) :
    Except LayoutError (Settings × List String) :=
  match environment.lookup "CELLKIT_WIDTH" with
  | none | some "" => .ok (settings, [])
  | some width =>
    match Decimal.read width.toList with
    | .number number => .ok ({ settings with defaultWidth := .int number }, [])
    | .tooLong digits => .error (.tooManyDigits digits)
    | .other => .ok (settings,
      ["Ignoring CELLKIT_WIDTH=" ++ String.ofList (Text.quoted width.toList) ++ ": not a width"])

/-- The settings with everything that the environment gives. An empty border is not used, an empty
marker is. -/
def applyEnvironment (environment : Environment) (settings : Settings) :
    Except LayoutError (Settings × List String) := do
  let (settings, warnings) ← settings.applyWidth environment
  let settings := match environment.lookup "CELLKIT_BORDER" with
    | none | some "" => settings
    | some border => { settings with border := .text border.toList }
  let settings := match environment.lookup "CELLKIT_TRUNCATE_MARKER" with
    | none => settings
    | some marker => { settings with truncateMarker := .text marker.toList }
  return (settings, warnings)

/-- The width of the terminal that the environment gives, if it is a positive number. -/
def terminalColumns (environment : Environment) : Int :=
  match (environment.lookup "COLUMNS").bind fun text => Decimal.readInteger? text.toList with
  | some columns => if 0 < columns then columns else 80
  | none => 80

/-- The total width to draw at: the default width if there is one, else that of the terminal. -/
def terminalWidth (settings : Settings) (environment : Environment) : Value :=
  match settings.defaultWidth with
  | .null => .int (terminalColumns environment)
  | width => width

end Settings

end TextGrid
