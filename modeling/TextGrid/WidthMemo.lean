import TextGrid.Markup.Slice

/-!
# Remembered widths

The width of a text that is not printable ASCII is remembered, so that the text need not be
segmented when it is measured again. A memo that is full forgets everything before it takes one more
width.
-/

namespace TextGrid

/-- Texts that were measured, each with its width, the last one first. -/
structure WidthMemo where
  entries : List (Text × Nat)
  deriving DecidableEq, Repr

/-- What can be measured. -/
inductive Measurand
  /-- A text with no markup in it. -/
  | content (text : Text)
  | spans (spans : List Span)
  /-- A marked-up text. -/
  | markup (text : Text)
  deriving DecidableEq, Repr

namespace WidthMemo

/-- A memo without entries. -/
def empty : WidthMemo :=
  ⟨[]⟩

/-- The number of widths that are remembered at a time. -/
def capacity : Nat := 512

/-- The remembered width of a text. -/
def find? (memo : WidthMemo) (text : Text) : Option Nat :=
  memo.entries.lookup text

/-- The memo with one more width. There are no older ones in it if there was no room for it. -/
def insert (memo : WidthMemo) (text : Text) (width : Nat) : WidthMemo :=
  ⟨(text, width) :: if memo.entries.length < capacity then memo.entries else []⟩

/-- Cells that a text takes, with no markup in it, and the memo after it. Printable ASCII is counted
and not remembered. -/
def contentWidth (memo : WidthMemo) (text : Text) : Nat × WidthMemo :=
  if text.all Text.isPlain then (text.length, memo)
  else
    match memo.find? text with
    | some width => (width, memo)
    | none =>
      let width := Text.clusteredWidth text
      (width, memo.insert text width)

/-- Cells that the text spans take, measured in their order. -/
def spansWidth (memo : WidthMemo) : List Span → Nat × WidthMemo
  | [] => (0, memo)
  | span :: later =>
    let (width, after) := memo.contentWidth span.content
    let (rest, last) := after.spansWidth later
    (width + rest, last)

/-- What is measured takes so many cells, or is no well-nested markup. Without a bracket there is
nothing to parse. -/
def measure (memo : WidthMemo) : Measurand → Except MarkupError Nat × WidthMemo
  | .content text => (memo.contentWidth text).map .ok id
  | .spans spans => (memo.spansWidth spans).map .ok id
  | .markup text =>
    if text.contains '[' then
      match Markup.parse text with
      | .error fault => (.error fault, memo)
      | .ok spans => (memo.spansWidth spans).map .ok id
    else (memo.contentWidth text).map .ok id

/-- The widths of several things measured one after another. -/
def measureAll (memo : WidthMemo) : List Measurand → List (Except MarkupError Nat) × WidthMemo
  | [] => ([], memo)
  | measurand :: later =>
    let (width, after) := memo.measure measurand
    let (widths, last) := after.measureAll later
    (width :: widths, last)

end WidthMemo

end TextGrid
