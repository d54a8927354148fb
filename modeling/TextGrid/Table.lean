import TextGrid.Border
import TextGrid.Formatter

/-!
# Tables

A table puts a header, rules, borders and a footer around rows. It does no layout of its own: a
border becomes the decorations of the spec, so that its width is accounted for, and every line goes
through a formatter, rules included.
-/

namespace TextGrid

/-- How a table is to look. -/
structure TableStyle where
  border : BorderStyle := .light
  /-- Whether there is a line of column headers. -/
  header : Bool := true
  /-- The name of the style of the header cells. -/
  headerStyle : Value := .null
  /-- A record drawn after the others, below a rule. -/
  footer : Option Value := none
  /-- Whether there is a rule between records. -/
  rowSeparator : Bool := false
  /-- The name of the style of the border glyphs; null for none. -/
  borderTag : Value := .null

namespace TableStyle

/-- A piece of border in its style. -/
def glyphText (style : TableStyle) (piece : Text) : Except LayoutError Text :=
  match style.borderTag with
  | .null => .ok piece
  | tag => return Markup.style piece (← tag.plain)

/-- The spec with the border's vertical strokes for its decorations. -/
def bordered (style : TableStyle) (spec : Spec) : Except LayoutError Spec :=
  match style.border.glyphs? with
  | none => .ok spec
  | some glyphs => do
    let stroke ← style.glyphText [glyphs.vertical]
    Spec.make spec.columns
      { separator := ' ' :: stroke ++ [' '], leading := stroke ++ [' '], trailing := ' ' :: stroke }

/-- The decorations of a rule. -/
def ruleDecorations (horizontal : Char) (glyphs : RuleGlyphs) : Decorations :=
  { separator := [horizontal, glyphs.junction, horizontal]
    leading := [glyphs.left, horizontal]
    trailing := [horizontal, glyphs.right] }

/-- The line of a rule, if the border has rules and there is anything to draw. -/
def ruleLines (style : TableStyle) (formatter : Formatter) (choose : BorderGlyphs → RuleGlyphs) :
    Except LayoutError (List Text) :=
  match style.border.glyphs? with
  | none => .ok []
  | some glyphs => do
    let decorations := ruleDecorations glyphs.horizontal (choose glyphs)
    let line ← formatter.rule [glyphs.horizontal] decorations
    if line.isEmpty then return [] else return [← style.glyphText line]

end TableStyle

/-- A spec with its border, to be drawn at a total width. -/
structure Table where
  spec : Spec
  total : Int
  style : TableStyle

namespace Table

/-- A table over a spec. A border replaces the decorations of the spec. -/
def make (spec : Spec) (total : Int) (style : TableStyle) : Except LayoutError Table :=
  return ⟨← style.bordered spec, total, style⟩

/-- A formatter measured on everything that the table shows. -/
def formatter (cache : WidthCache) (table : Table) (records : List Value) :
    Except LayoutError Formatter × WidthCache :=
  Formatter.forRecords cache table.spec table.total (records ++ table.style.footer.toList)
    table.style.header

/-- The header line and the rule below it. -/
def headerLines (style : TableStyle) (formatter : Formatter) : Except LayoutError (List Text) := do
  if style.header then
    let lines ← formatter.headerLines style.headerStyle
    return lines ++ (← style.ruleLines formatter (·.middle))
  else return []

/-- The lines of the records, with rules between them if the style asks for those. -/
def bodyLines (style : TableStyle) (formatter : Formatter) :
    List Value → Except LayoutError (List Text)
  | [] => .ok []
  | [last] => formatter.rowLines last
  | record :: later => do
    let lines ← formatter.rowLines record
    let rule ← if style.rowSeparator then style.ruleLines formatter (·.middle) else pure []
    return lines ++ rule ++ (← bodyLines style formatter later)

/-- The rule above the footer, and the footer. -/
def footerLines (style : TableStyle) (formatter : Formatter) : Except LayoutError (List Text) :=
  match style.footer with
  | none => .ok []
  | some record => do
    let rule ← style.ruleLines formatter (·.middle)
    return rule ++ (← formatter.rowLines record)

/-- All lines of a table. -/
def lines (style : TableStyle) (formatter : Formatter) (records : List Value) :
    Except LayoutError (List Text) := do
  let top ← style.ruleLines formatter (·.top)
  let header ← headerLines style formatter
  let body ← bodyLines style formatter records
  let footer ← footerLines style formatter
  let bottom ← style.ruleLines formatter (·.bottom)
  return top ++ header ++ body ++ footer ++ bottom

/-- The table over some records as one text. -/
def render (cache : WidthCache) (table : Table) (records : List Value) :
    Except LayoutError Text × WidthCache :=
  let (formatter, cache) := table.formatter cache records
  (formatter.bind fun formatter =>
    (lines table.style formatter records).map Formatter.joinLines, cache)

end Table

end TextGrid
