import TextGrid.Value.Display

/-!
# Cell texts of values

A cell shows a scalar as it is written and a text as it is. A list or a mapping is shown as compact
JSON, without blanks and with every printable code point as it is.
-/

namespace TextGrid.Value

/-- A code point inside a JSON string. -/
def jsonChar (c : Char) : Text :=
  if c = '"' then ['\\', '"']
  else if c = '\\' then ['\\', '\\']
  else if c = '\n' then ['\\', 'n']
  else if c = '\r' then ['\\', 'r']
  else if c = '\t' then ['\\', 't']
  else if c.toNat = 0x0C then ['\\', 'f']
  else if c.toNat = 0x08 then ['\\', 'b']
  else if c.toNat < 0x20 then ['\\', 'u'] ++ Text.hexDigits 4 c.toNat
  else [c]

/-- A JSON string. -/
def jsonString (text : Text) : Text :=
  '"' :: text.flatMap jsonChar ++ ['"']

/-- The name that a key has in a JSON object. Only texts, numbers and null can be names. -/
def jsonKey : Value → Except LayoutError Text
  | null => .ok "null".toList
  | bool true => .ok "true".toList
  | bool false => .ok "false".toList
  | int value => written (Decimal.write? value)
  | float value => .ok (value.text Binary64.compactSpelling)
  | text value => .ok value
  | dressed value _ => jsonKey value
  | _ => .error .unsuitable

/-- Whether JSON has a notation for values of this kind. -/
def isJson : Value → Bool
  | null | bool _ | int _ | float _ | text _ | list _ | tuple _ | map _ => true
  | dressed value _ => isJson value
  | _ => false

mutual

/-- The compact JSON text of a value. A value that JSON lacks stands there as a string of its plain
form. -/
def compact : Value → Except LayoutError Text
  | null => .ok "null".toList
  | bool true => .ok "true".toList
  | bool false => .ok "false".toList
  | int value => written (Decimal.write? value)
  | float value => .ok (value.text Binary64.compactSpelling)
  | text value => .ok (jsonString value)
  | list items | tuple items =>
    return '[' :: Text.joined [','] (← compactAll items) ++ [']']
  | map entries => return '\x7b' :: Text.joined [','] (← compactEntries entries) ++ ['\x7d']
  | dressed value face =>
    if isJson value then compact value else return jsonString (← written face.plain?)
  | other => return jsonString (← plain other)

/-- The compact JSON texts of several values. -/
def compactAll : List Value → Except LayoutError (List Text)
  | [] => .ok []
  | value :: rest => return (← compact value) :: (← compactAll rest)

/-- The members of a JSON object. -/
def compactEntries : List (Value × Value) → Except LayoutError (List Text)
  | [] => .ok []
  | (key, value) :: rest =>
    return (jsonString (← jsonKey key) ++ ':' :: (← compact value)) :: (← compactEntries rest)

end

/-- The text that a cell shows for a value. Nothing is shown for null and for a missing field. -/
def cellText (value : Value) : Except LayoutError Text :=
  match value.bare with
  | null | missing => .ok []
  | bool true => .ok "true".toList
  | bool false => .ok "false".toList
  | text content => .ok content
  | int _ | float _ => plain value
  | _ => compact value

end TextGrid.Value
