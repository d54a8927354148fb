import TextGrid.Text.Utf8
import TextGrid.Value.Display

/-!
# Normal form of values

In normal form a value is null, a scalar, a text, a list or a mapping with text keys. Sequences and
sets become lists, a set in the order of its members' displayed forms; records and objects become
mappings. Keys and members of sets must have written forms, and so a value may have no normal form.
-/

namespace TextGrid.Value

/-- Whether a name marks a private attribute. -/
def isPrivate (name : Text) : Bool :=
  name.head? == some '_'

/-- Whether a value is a scalar or a text, of whatever class. -/
def isScalar : Value → Bool
  | bool _ | int _ | float _ | text _ => true
  | dressed value _ => isScalar value
  | _ => false

/-- Values in the order of the texts they come with; equal texts keep their order. -/
def inOrder (items : List (Text × Value)) : List Value :=
  (items.mergeSort fun a b => Text.precedes a.1 b.1).map (·.2)

mutual

/-- The normal form of a value. Keys of mappings become texts by their plain form, and of two keys
with one form the later value counts. Scalars and texts keep their classes. -/
def normalize : Value → Except LayoutError Value
  | null => .ok null
  | bool value => .ok (bool value)
  | int value => .ok (int value)
  | float value => .ok (float value)
  | text value => .ok (text value)
  | bytes content | buffer content => .ok (text (Text.Utf8.decode content))
  | list items | tuple items => return list (← normalizeAll items)
  | set members | frozenSet members => return list (inOrder (← normalizeMembers members))
  | map entries => return ofNamed (← normalizeEntries entries)
  | record _ fields => return ofNamed (← normalizeFields fields)
  | object _ attributes => return ofNamed (← normalizeVisible attributes)
  | standIn _ value => normalize value
  | printed face => return text (← written face.plain?)
  | dressed value face => if isScalar value then .ok (dressed value face) else normalize value
  | missing => .ok (map [])
  | undefined => .ok (text [])

/-- The normal forms of several values. -/
def normalizeAll : List Value → Except LayoutError (List Value)
  | [] => .ok []
  | value :: rest => return (← normalize value) :: (← normalizeAll rest)

/-- The normal forms of the members of a set, each with its displayed form. -/
def normalizeMembers : List Value → Except LayoutError (List (Text × Value))
  | [] => .ok []
  | member :: rest => return (← quoted member, ← normalize member) :: (← normalizeMembers rest)

/-- The entries of a mapping with their keys as texts. -/
def normalizeEntries : List (Value × Value) → Except LayoutError (List (Text × Value))
  | [] => .ok []
  | (key, value) :: rest => return (← plain key, ← normalize value) :: (← normalizeEntries rest)

/-- Named values in normal form. -/
def normalizeFields : List (Text × Value) → Except LayoutError (List (Text × Value))
  | [] => .ok []
  | (name, value) :: rest => return (name, ← normalize value) :: (← normalizeFields rest)

/-- The attributes of an object that are not private, in normal form. -/
def normalizeVisible : List (Text × Value) → Except LayoutError (List (Text × Value))
  | [] => .ok []
  | (name, value) :: rest =>
    if isPrivate name then normalizeVisible rest
    else return (name, ← normalize value) :: (← normalizeVisible rest)

end

end TextGrid.Value
