import TextGrid.Cluster
import TextGrid.Sum
import TextGrid.Unicode.CellWidth

/-!
# Display width

A text is as wide as its clusters together, and a cluster takes none, one or two terminal cells.
Printable ASCII needs no clusters: each of its code points takes one cell.
-/

namespace TextGrid

namespace Cluster

/-- Cells that a code point takes when it stands alone. -/
def charWidth (c : Char) : Nat :=
  if Unicode.zeroWidth.contains c.toNat then 0
  else if Unicode.wide.contains c.toNat then 2
  else 1

/-- Code points that make a pictograph of any cluster they are in: the emoji selector, the joiner,
the skin tones and the regional letters. -/
def isEmojiSign (c : Char) : Bool :=
  let code := c.toNat
  code == 0xFE0F || code == 0x200D || (0x1F3FB ≤ code && code ≤ 0x1F3FF) ||
    (0x1F1E6 ≤ code && code ≤ 0x1F1FF)

/-- Symbols that are drawn two cells wide when anything is attached to them. -/
def isSymbol (c : Char) : Bool :=
  let code := c.toNat
  0x1F000 ≤ code || (0x2600 ≤ code && code ≤ 0x27BF)

/-- Cells that a cluster takes. A longer cluster is as wide as its first code point, unless it shows
a pictograph. -/
def width : Text → Nat
  | [] => 0
  | [c] => charWidth c
  | text@(first :: _) =>
    if text.any isEmojiSign then 2
    else if isSymbol first then 2
    else if Unicode.formatMark.contains first.toNat then 0
    else charWidth first

end Cluster

namespace Text

/-- The width of a text as the sum over its clusters. -/
def clusteredWidth (text : Text) : Nat :=
  sumNat ((Cluster.segment text).map Cluster.width)

/-- Whether a code point is an ASCII letter, digit, sign or space. -/
def isPlain (c : Char) : Bool :=
  0x20 ≤ c.toNat && c.toNat ≤ 0x7E

/-- Cells that a text takes, with no markup in it. Printable ASCII is counted and not segmented. -/
def width (text : Text) : Nat :=
  if text.all isPlain then text.length else clusteredWidth text

end Text

end TextGrid
