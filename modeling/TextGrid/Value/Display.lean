import TextGrid.Error
import TextGrid.Number.Shortest
import TextGrid.Value.Order

/-!
# Displayed values

The displayed form of a value shows what kind it is: texts stand between quotes, and each kind of
container has brackets of its own. Messages show offending values in this form, and keys of mappings
that are no texts take it as their name. A value that holds an integer of too many digits has no
displayed form.
-/

namespace TextGrid

namespace Value

/-- A written form, or the error of an integer that is too long for one. -/
def written : Option Text → Except LayoutError Text
  | some form => .ok form
  | none => .error .unwritable

/-- The parts with a comma and a space between neighbours. -/
def listed (parts : List Text) : Text :=
  Text.joined [',', ' '] parts

mutual

/-- The displayed form of a value. -/
def quoted : Value → Except LayoutError Text
  | null => .ok "None".toList
  | bool true => .ok "True".toList
  | bool false => .ok "False".toList
  | int value => written (Decimal.write? value)
  | float value => .ok (value.text Binary64.plainSpelling)
  | text value => .ok (Text.quoted value)
  | bytes content => .ok (Text.quotedBytes content)
  | buffer content => .ok (Text.quotedBuffer content)
  | list items => return '[' :: listed (← quotedAll items) ++ [']']
  | tuple items => do
    match ← quotedAll items with
    | [only] => return '(' :: only ++ [',', ')']
    | parts => return '(' :: listed parts ++ [')']
  | set [] => .ok "set()".toList
  | set members => return '\x7b' :: listed (← quotedAll members) ++ ['\x7d']
  | frozenSet [] => .ok "frozenset()".toList
  | frozenSet members =>
    return "frozenset(".toList ++ '\x7b' :: listed (← quotedAll members) ++ ['\x7d', ')']
  | map entries => return '\x7b' :: listed (← quotedEntries entries) ++ ['\x7d']
  | record kind fields => return kind.name ++ '(' :: listed (← quotedFields fields) ++ [')']
  | object face _ | standIn face _ | printed face | dressed _ face => written face.quoted?
  | missing => .ok "MISSING".toList
  | undefined => .ok "Undefined".toList

/-- The displayed forms of several values. -/
def quotedAll : List Value → Except LayoutError (List Text)
  | [] => .ok []
  | value :: rest => return (← quoted value) :: (← quotedAll rest)

/-- The displayed forms of the entries of a mapping. -/
def quotedEntries : List (Value × Value) → Except LayoutError (List Text)
  | [] => .ok []
  | (key, value) :: rest =>
    return ((← quoted key) ++ ':' :: ' ' :: (← quoted value)) :: (← quotedEntries rest)

/-- The displayed forms of named values. -/
def quotedFields : List (Text × Value) → Except LayoutError (List Text)
  | [] => .ok []
  | (name, value) :: rest =>
    return (name ++ '=' :: (← quoted value)) :: (← quotedFields rest)

end

/-- The plain form of a value: a text is itself, and everything else is displayed unless it has a
plain form of its own. -/
def plain : Value → Except LayoutError Text
  | text value => .ok value
  | object face _ | standIn face _ | printed face | dressed _ face => written face.plain?
  | undefined => .ok []
  | value => quoted value

end Value

/-- The error about a value that stands where a text is measured and joined to others. Collections
that are not empty pass for texts at first. -/
def LayoutError.ofNonText (value : Value) : LayoutError :=
  match value.bare with
  | .list (_ :: _) | .tuple (_ :: _) | .set (_ :: _) | .frozenSet (_ :: _) => lacking
  | .map (_ :: _) => lacking
  | _ => unsuitable

end TextGrid
