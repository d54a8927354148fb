import TextGrid.Value.Display

/-!
# Overflow

Content that is wider than its column is cut at an edge, wrapped onto more lines, or kept whole in a
wider cell.
-/

namespace TextGrid

/-- The end at which a text is cut short. -/
inductive Edge
  | start
  | middle
  | finish
  deriving DecidableEq, Repr

/-- What happens to content that is wider than its column. Values are kept as given. -/
inductive Overflow
  /-- Cut at an edge, with a marker there. Only a cut asks for a marker that is a text. -/
  | truncate (edge : Edge) (marker : Value)
  /-- Wrapped onto more lines, with later lines indented by a number of spaces. -/
  | wrap (indent : Value)
  /-- Cut at the end without a marker. -/
  | clip
  /-- Kept whole, in a wider cell. -/
  | expand
  deriving Repr

namespace Edge

/-- The word for an edge. -/
def word : Edge → Text
  | start => ['s', 't', 'a', 'r', 't']
  | middle => ['m', 'i', 'd', 'd', 'l', 'e']
  | finish => ['e', 'n', 'd']

/-- The edge that a word names. -/
def ofWord? (word : Text) : Option Edge :=
  if word = start.word then some start
  else if word = middle.word then some middle
  else if word = finish.word then some finish
  else none

/-- The edge that a value names. -/
def read (value : Value) : Except LayoutError Edge := do
  match value.text?.bind ofWord? with
  | some edge => return edge
  | none => throw (.invalidChoice .edge (← value.quoted))

end Edge

/-- The marker of cut text when no other is given: an ellipsis. -/
def defaultMarker : Text := [Char.ofNat 0x2026]

namespace Overflow

/-- Content is cut at its end, and the default marker put there. -/
def standard : Overflow :=
  truncate .finish (.text defaultMarker)

/-- Whether content is kept whole. -/
def isExpand : Overflow → Bool
  | expand => true
  | _ => false

/-- Whether two overflow rules are equal. -/
def same : Overflow → Overflow → Bool
  | truncate edge marker, truncate edge' marker' => edge == edge' && marker.same marker'
  | wrap indent, wrap indent' => indent.same indent'
  | clip, clip | expand, expand => true
  | _, _ => false

end Overflow

end TextGrid
