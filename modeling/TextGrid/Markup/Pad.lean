import TextGrid.Markup.Slice

/-!
# Padding

Spaces fill a marked-up text up to a number of cells. A text that is already as wide stays as it is.
-/

namespace TextGrid.Markup

/-- Cells that a text lacks to be `width` wide, none when it is as wide. -/
def shortfall (text : Text) (width : Int) : Except MarkupError Nat :=
  return (width - (← displayWidth text)).toNat

/-- Spaces after the text. -/
def padRight (text : Text) (width : Int) : Except MarkupError Text :=
  return text ++ Text.spaces (← shortfall text width)

/-- Spaces before the text. -/
def padLeft (text : Text) (width : Int) : Except MarkupError Text :=
  return Text.spaces (← shortfall text width) ++ text

/-- Spaces on both sides; an odd one goes after the text. -/
def padCenter (text : Text) (width : Int) : Except MarkupError Text := do
  let padding ← shortfall text width
  return Text.spaces (padding / 2 : Nat) ++ text ++ Text.spaces (padding - padding / 2 : Nat)

end TextGrid.Markup
