import TextGrid.Value.Display

/-!
# Borders

A border style is a set of box-drawing glyphs: one each for horizontal and vertical strokes, and
three for each rule, at its ends and where it meets the strokes between columns.
-/

namespace TextGrid

/-- The look of a table's border. -/
inductive BorderStyle
  | none
  | ascii
  | light
  | heavy
  | double
  | rounded
  deriving DecidableEq, Repr

/-- The glyphs of one rule where it meets vertical strokes. -/
structure RuleGlyphs where
  left : Char
  junction : Char
  right : Char
  deriving DecidableEq, Repr

/-- The glyphs of a border. -/
structure BorderGlyphs where
  horizontal : Char
  vertical : Char
  top : RuleGlyphs
  middle : RuleGlyphs
  bottom : RuleGlyphs
  deriving DecidableEq, Repr

namespace BorderStyle

/-- The words for the styles. -/
def words : List (String × BorderStyle) :=
  [("none", none), ("ascii", ascii), ("light", light), ("heavy", heavy), ("double", double),
    ("rounded", rounded)]

/-- The style that a value names. -/
def read (value : Value) : Except LayoutError BorderStyle := do
  match value.text?.bind fun word => words.lookup (String.ofList word) with
  | some style => return style
  | Option.none => throw (.invalidChoice .border (← value.quoted))

/-- The glyphs of a style; the style without a border has none. -/
def glyphs? : BorderStyle → Option BorderGlyphs
  | none => Option.none
  | ascii => some ⟨'-', '|', ⟨'+', '+', '+'⟩, ⟨'+', '+', '+'⟩, ⟨'+', '+', '+'⟩⟩
  | light => some ⟨'─', '│', ⟨'┌', '┬', '┐'⟩, ⟨'├', '┼', '┤'⟩, ⟨'└', '┴', '┘'⟩⟩
  | heavy => some ⟨'━', '┃', ⟨'┏', '┳', '┓'⟩, ⟨'┣', '╋', '┫'⟩, ⟨'┗', '┻', '┛'⟩⟩
  | double => some ⟨'═', '║', ⟨'╔', '╦', '╗'⟩, ⟨'╠', '╬', '╣'⟩, ⟨'╚', '╩', '╝'⟩⟩
  | rounded => some ⟨'─', '│', ⟨'╭', '┬', '╮'⟩, ⟨'├', '┼', '┤'⟩, ⟨'╰', '┴', '╯'⟩⟩

end BorderStyle

end TextGrid
