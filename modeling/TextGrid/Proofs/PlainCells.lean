import TextGrid.Proofs.Truncation
import TextGrid.Proofs.Wrapping

/-!
# Cells of plain text

What a cell shows depends on the plain text of its value, on the overflow rule and on the anchor of
its column. Neither the tags in the value nor the style of the column matter. `Cell.drawPlain` draws
that picture, and every line of it is as wide as its box.
-/

namespace TextGrid

namespace Markup

/-- The plain text that a text shows, or nothing if its markup is at fault. -/
def shown (text : Text) : Text :=
  match strip text with
  | .ok plain => plain
  | .error _ => []

/-- Whether a text is well-nested markup that shows ordinary text, with no bracket outside of its
tags. -/
def IsOrdinary (text : Text) : Prop :=
  ∃ plain, Draws text plain

/-- The text that is shown is found by stripping the tags. -/
theorem ShowsWithout.shown_eq {bracket : Char} {text plain : Text}
    (h : ShowsWithout bracket text plain) : shown text = plain := by
  rw [shown, h.strip_eq]

/-- A text that shows ordinary text draws what it shows. -/
theorem IsOrdinary.draws {text : Text} (h : IsOrdinary text) : Draws text (shown text) := by
  obtain ⟨plain, hdraws⟩ := h
  rwa [hdraws.shows.shown_eq]

end Markup

namespace Text

/-- One line of a wrapped box: what fits behind the lead, filled up. -/
def boxLine (anchor : Anchor) (width : Int) (lead line : Text) : Text :=
  let room := width - lead.length
  lead ++ padded anchor (fitting false (max room 0) line) room

/-- The lines of a wrapped box. -/
def boxLines (anchor : Anchor) (width indent : Int) (text : Text) : List Text :=
  let indent := if indent < width then indent else 0
  match wrapped width.toNat (width - indent).toNat text with
  | [] => []
  | first :: later =>
    boxLine anchor width [] first :: later.map (boxLine anchor width (spaces indent))

/-- A line of a wrapped box is as wide as the box, if its lead fits. -/
theorem cells_boxLine {anchor : Anchor} {width count : Int} {line : Text}
    (h : (spaces count).length ≤ width) :
    (cells (boxLine anchor width (spaces count) line) : Int) = width := by
  have hspaces : (spaces count).length = count.toNat := by simp [spaces]
  have hroom : 0 ≤ max (width - (spaces count).length) 0 := by omega
  have hfits := cells_fitting_le hroom line
  have hpadded := cells_padded anchor
    (fitting false (max (width - (spaces count).length) 0) line) (width - (spaces count).length)
  simp only [boxLine, cells_append, cells_spaces]
  omega

end Text

/-- A layout has no fault when none of its parts has one. -/
theorem ColumnLayout.fault?_eq_none_iff {layout : ColumnLayout} :
    layout.fault? = none ↔ layout.widthFault? = none ∧ layout.overflowFault? = none ∧
      layout.styleFault? = none ∧ layout.keyFault? = none := by
  unfold fault?
  cases layout.widthFault? <;> cases layout.overflowFault? <;> cases layout.styleFault? <;>
    cases layout.keyFault? <;> simp

namespace Overflow

/-- Whether the values of an overflow rule are of the kinds that it asks for: an ordinary marker, or
an indent that is no fraction. -/
def IsOrdinary : Overflow → Prop
  | truncate _ marker => ∃ text, marker = .text text ∧ Markup.IsOrdinary text
  | wrap indent => ∀ number, indent.bare ≠ .float number
  | clip | expand => True

/-- Whether a plain text can be drawn under an overflow rule. Blanks only separate words where text
is wrapped. -/
def Takes : Overflow → Text → Prop
  | wrap _, text => text.IsWrappable
  | _, text => text.IsOrdinary

/-- Text that an overflow rule takes can be wrapped. -/
theorem Takes.isWrappable {overflow : Overflow} {text : Text} (h : overflow.Takes text) :
    text.IsWrappable := by
  cases overflow with
  | wrap indent => exact h
  | truncate edge marker => exact Text.IsOrdinary.isWrappable h
  | clip => exact Text.IsOrdinary.isWrappable h
  | expand => exact Text.IsOrdinary.isWrappable h

/-- Every overflow rule takes ordinary text. -/
theorem takes_of_isOrdinary (overflow : Overflow) {text : Text} (h : text.IsOrdinary) :
    overflow.Takes text := by
  cases overflow with
  | wrap indent => exact h.isWrappable
  | truncate edge marker => exact h
  | clip => exact h
  | expand => exact h

/-- Only one overflow rule keeps content whole. -/
theorem isExpand_eq_true_iff {overflow : Overflow} :
    overflow.isExpand = true ↔ overflow = expand := by
  cases overflow <;> simp [isExpand]

/-- The lines of a plain text in a box that its content has to keep to. -/
def plainLines (overflow : Overflow) (anchor : Anchor) (width : Int) (text : Text) : List Text :=
  match overflow with
  | wrap indent => Text.boxLines anchor width (indent.floor?.getD 0) text
  | truncate edge (.text marker) =>
    [Text.padded anchor (Text.truncated text width edge (Markup.shown marker)) width]
  | truncate _ _ | clip | expand =>
    [Text.padded anchor (Text.truncated text width .finish []) width]

end Overflow

namespace Cell

open Markup

/-- The cell of a plain text in the box of a column. -/
def drawPlain (text : Text) (column : Column) (width index : Int) : Cell :=
  if column.isExpand then
    let box := max width (Text.cells text)
    ⟨index, box, [Text.padded column.anchor text box]⟩
  else if width ≤ 0 then ⟨index, 0, [[]]⟩
  else ⟨index, width, column.overflow.plainLines column.anchor width text⟩

/-- Only the overflow rule and the anchor of a column count. -/
theorem drawPlain_congr (text : Text) {column column' : Column}
    (hoverflow : column.overflow = column'.overflow) (hanchor : column.anchor = column'.anchor)
    (width index : Int) :
    drawPlain text column width index = drawPlain text column' width index := by
  have hexpand : column.isExpand = column'.isExpand := by
    rw [ColumnLayout.isExpand, ColumnLayout.isExpand, hoverflow]
  rw [drawPlain, drawPlain, hexpand, hoverflow, hanchor]

/-- Whether a cell shows a cell of plain text. -/
structure Pictures (cell plain : Cell) : Prop where
  index : cell.index = plain.index
  width : cell.width = plain.width
  lines : List.Forall₂ Draws cell.lines plain.lines

/-- A style that a cell may have is the name of a tag. -/
theorem isTagName_of_styleName? {column : Column} {text name : Text}
    (h : styleName? column text = some name) : isTagName name = true := by
  have hfault : column.styleFault? = none := by
    have hsound := column.sound
    exact (ColumnLayout.fault?_eq_none_iff.mp hsound).2.2.1
  unfold styleName? at h
  split at h
  · next name' hstyle =>
    obtain rfl := Option.some.inj h
    by_contra hname
    simp [ColumnLayout.styleFault?, hstyle, hname] at hfault
  · split at h
    · next hname =>
      obtain rfl := Option.some.inj h
      exact hname
    · cases h
  · cases h
  · cases h

/-- A text in the style of a cell draws the same. -/
theorem styled_draws {content plain : Text} (h : Draws content plain) {tag : Option Text}
    (htag : ∀ name, tag = some name → isTagName name = true) :
    Draws (styled content tag) plain := by
  cases tag with
  | none => exact h
  | some name => exact h.style (htag name rfl)

/-- What stands behind the lead of a wrapped line is cut to its room, if it is too wide, and then
styled and filled up. -/
theorem wrappedLine_eq_ok {anchor : Anchor} {tag : Option Text} {width room : Int}
    {lead line body filled : Text} {used : Nat} (hroom : width - lead.length = room)
    (hused : Markup.displayWidth line = .ok used)
    (hcut : (if room < used then Markup.cut line room else pure line) = .ok body)
    (hpad : pad anchor (styled body tag) room = .ok filled) :
    wrappedLine anchor tag width lead (lead ++ line) = .ok (lead ++ filled) := by
  simp only [wrappedLine, List.drop_left, hroom, hused, ok_bind]
  by_cases hfits : room < used
  · rw [if_pos hfits] at hcut ⊢
    rw [hcut, ok_bind, hpad]
    rfl
  · rw [if_neg hfits] at hcut ⊢
    rw [hcut, ok_bind, hpad]
    rfl

/-- A line of a wrapped cell is cut or filled to the room behind its lead. -/
theorem wrappedLine_draws {line plain : Text} (h : Draws line plain) {tag : Option Text}
    (htag : ∀ name, tag = some name → isTagName name = true) (anchor : Anchor)
    (width count : Int) :
    ∃ drawn, wrappedLine anchor tag width (Text.spaces count) (Text.spaces count ++ line) =
        .ok drawn ∧
      Draws drawn (Text.boxLine anchor width (Text.spaces count) plain) := by
  generalize hroom : width - ((Text.spaces count).length : Int) = room
  have hbody : ∃ body, (if room < Text.cells plain then cut line room else pure line) = .ok body ∧
      Draws body (Text.fitting false (max room 0) plain) := by
    split
    · exact h.cut room
    · next hfits =>
      have hle : (Text.cells plain : Int) ≤ max room 0 := by omega
      rw [Text.fitting_of_le false hle]
      exact ⟨line, rfl, h⟩
  obtain ⟨body, hcut, hbody⟩ := hbody
  obtain ⟨filled, hpad, hfilled⟩ := pad_draws (styled_draws hbody htag) anchor room
  refine ⟨Text.spaces count ++ filled, wrappedLine_eq_ok hroom h.displayWidth hcut hpad, ?_⟩
  rw [Text.boxLine, hroom]
  exact (Draws.spaces count).append hfilled

/-- A wrapped cell draws the first line without a lead, and every later one behind it. -/
theorem wrappedLines_eq_ok {anchor : Anchor} {tag : Option Text} {width indent kept : Int}
    {text first head : Text} {later rest : List Text}
    (hkept : (if indent < width then indent else 0) = kept)
    (hwrap : wrapIndent text width kept = .ok (indentRest (Text.spaces kept) (first :: later)))
    (hfirst : wrappedLine anchor tag width (Text.spaces 0) (Text.spaces 0 ++ first) = .ok head)
    (hlater : later.mapM (fun line =>
      wrappedLine anchor tag width (Text.spaces kept) (Text.spaces kept ++ line)) = .ok rest) :
    wrappedLines anchor tag width indent text = .ok (head :: rest) := by
  have hempty : Text.spaces 0 = [] := rfl
  rw [hempty, List.nil_append] at hfirst
  simp only [wrappedLines, hkept, hwrap, ok_bind, indentRest, hfirst, List.mapM_map,
    Function.comp_def, hlater]
  rfl

/-- An indent that is dropped where it leaves no room fits the width. -/
theorem keptIndent_lt {width : Int} (hwidth : 0 < width) (indent : Int) :
    (if indent < width then indent else 0) < width := by
  split
  · assumption
  · exact hwidth

/-- The lines of a wrapped cell draw the lines of the wrapped plain text. -/
theorem wrappedLines_draws {text plain : Text} (h : ShowsWithout '[' text plain)
    (hwrappable : plain.IsWrappable) {tag : Option Text}
    (htag : ∀ name, tag = some name → isTagName name = true) (anchor : Anchor) {width : Int}
    (hwidth : 0 < width) (indent : Int) :
    ∃ lines, wrappedLines anchor tag width indent text = .ok lines ∧
      List.Forall₂ Draws lines (Text.boxLines anchor width indent plain) := by
  obtain ⟨spans, hparse, hlegible, _, rfl⟩ := h.exists_parse
  generalize hkept : (if indent < width then indent else 0) = kept
  have hkeptLt := keptIndent_lt hwidth indent
  rw [hkept] at hkeptLt
  obtain ⟨lines, hwrap, hlines⟩ := wrapSpans_draws hlegible hwrappable hwidth hkeptLt
  have hindent : wrapIndent text width kept = .ok (indentRest (Text.spaces kept) lines) := by
    rw [← hwrap]
    simp [wrapIndent, hparse]
  simp only [Text.boxLines, hkept]
  generalize Text.wrapped width.toNat (width - kept).toNat (plainText spans) = plains at hlines ⊢
  cases hlines with
  | nil => exact ⟨[], by simp only [wrappedLines, hkept, hindent, ok_bind]; rfl, .nil⟩
  | @cons first firstPlain later laterPlains hfirst hlater =>
    obtain ⟨head, hhead, hheadDraws⟩ := wrappedLine_draws hfirst htag anchor width 0
    have hrest : ∃ rest, later.mapM (fun line =>
          wrappedLine anchor tag width (Text.spaces kept) (Text.spaces kept ++ line)) = .ok rest ∧
        List.Forall₂
          (fun line plain => Draws line (Text.boxLine anchor width (Text.spaces kept) plain))
          rest laterPlains :=
      exists_mapM_eq_ok hlater fun line plain hline =>
        wrappedLine_draws hline htag anchor width kept
    obtain ⟨rest, hrest, hrestDraws⟩ := hrest
    exact ⟨head :: rest, wrappedLines_eq_ok hkept hindent hhead hrest,
      .cons hheadDraws (List.forall₂_map_right_iff.mpr hrestDraws)⟩

/-- An indent that is no fraction is taken as it is. -/
theorem indentFor_eq_ok {indent : Value} (h : ∀ number, indent.bare ≠ .float number) (text : Text)
    (width : Int) : indentFor text width indent = .ok (indent.floor?.getD 0) := by
  unfold indentFor
  split
  · next number hindent => exact absurd hindent (h number)
  · rfl

/-- A cell that keeps its content whole shows the plain text, filled up. -/
theorem drawWhole_pictures {text plain : Text} (h : Draws text plain) (column : Column)
    (width index : Int) :
    ∃ cell, drawWhole column width index text = .ok cell ∧
      cell.Pictures ⟨index, max width (Text.cells plain),
        [Text.padded column.anchor plain (max width (Text.cells plain))]⟩ := by
  have hcontent : Draws (styled text (styleName? column text)) plain :=
    styled_draws h fun name hname => isTagName_of_styleName? hname
  obtain ⟨filled, hpad, hfilled⟩ :=
    pad_draws hcontent column.anchor (max width (Text.cells plain))
  refine ⟨⟨index, max width (Text.cells plain), [filled]⟩, ?_, rfl, rfl, .cons hfilled .nil⟩
  simp only [drawWhole, hcontent.displayWidth, ok_bind, hpad]
  rfl

/-- The lines of a cell that keeps to its box draw those of the plain text. -/
theorem boxLines_draws {text plain : Text} (h : ShowsWithout '[' text plain) {column : Column}
    (hcolumn : column.overflow.IsOrdinary) (htakes : column.overflow.Takes plain) {width : Int}
    (hwidth : 0 < width) :
    ∃ lines, boxLines column width text = .ok lines ∧
      List.Forall₂ Draws lines (column.overflow.plainLines column.anchor width plain) := by
  have htag : ∀ name, styleName? column text = some name → isTagName name = true :=
    fun name hname => isTagName_of_styleName? hname
  -- Text that is not wrapped is cut first, then styled and filled up as one line.
  have hline : ∀ short shortPlain, Draws short shortPlain →
      ∃ lines, (do return [← Markup.lift (pad column.anchor (styled short (styleName? column text))
          width)] : Except LayoutError (List Text)) = .ok lines ∧
        List.Forall₂ Draws lines [Text.padded column.anchor shortPlain width] := by
    intro short shortPlain hshort
    obtain ⟨filled, hpad, hfilled⟩ := pad_draws (styled_draws hshort htag) column.anchor width
    exact ⟨[filled], by rw [hpad]; rfl, .cons hfilled .nil⟩
  unfold boxLines
  cases hoverflow : column.overflow with
  | wrap indent =>
    rw [hoverflow] at hcolumn htakes
    obtain ⟨lines, hwrap, hlines⟩ :=
      wrappedLines_draws h htakes htag column.anchor hwidth (indent.floor?.getD 0)
    refine ⟨lines, ?_, hlines⟩
    simp only [indentFor_eq_ok hcolumn, ok_bind, hwrap]
    rfl
  | truncate edge marker =>
    rw [hoverflow] at hcolumn htakes
    obtain ⟨markerText, rfl, hmarker⟩ := hcolumn
    obtain ⟨short, htruncate, hshort⟩ := truncate_draws ⟨h, htakes⟩ hmarker.draws width edge
    simpa [truncateMarked, htruncate, Overflow.plainLines] using hline short _ hshort
  | clip =>
    rw [hoverflow] at htakes
    obtain ⟨short, htruncate, hshort⟩ := truncate_draws ⟨h, htakes⟩ Draws.nil width .finish
    simpa [htruncate, Overflow.plainLines] using hline short _ hshort
  | expand =>
    rw [hoverflow] at htakes
    obtain ⟨short, htruncate, hshort⟩ := truncate_draws ⟨h, htakes⟩ Draws.nil width .finish
    simpa [htruncate, Overflow.plainLines] using hline short _ hshort

/-- A text that a column takes is drawn as its plain text is, whatever its tags and the style of the
column. -/
theorem draw_pictures {text plain : Text} (h : ShowsWithout '[' text plain) {column : Column}
    (hcolumn : column.overflow.IsOrdinary) (htakes : column.overflow.Takes plain)
    (width index : Int) :
    ∃ cell, draw text column width index = .ok cell ∧
      cell.Pictures (drawPlain plain column width index) := by
  unfold draw drawPlain
  by_cases hexpand : column.isExpand = true
  · have hordinary : plain.IsOrdinary := by
      have hoverflow : column.overflow = .expand := Overflow.isExpand_eq_true_iff.mp hexpand
      rwa [hoverflow] at htakes
    obtain ⟨cell, hdraw, hcell⟩ := drawWhole_pictures ⟨h, hordinary⟩ column width index
    rw [if_pos hexpand, if_pos hexpand, hdraw]
    exact ⟨cell, rfl, hcell⟩
  · rw [if_neg hexpand, if_neg hexpand]
    by_cases hwidth : width ≤ 0
    · rw [if_pos hwidth, if_pos hwidth, h.displayWidth htakes.isWrappable.isCalm]
      exact ⟨⟨index, 0, [[]]⟩, rfl, rfl, rfl, .cons Draws.nil .nil⟩
    · rw [if_neg hwidth, if_neg hwidth]
      obtain ⟨lines, hbox, hlines⟩ := boxLines_draws h hcolumn htakes (by omega : 0 < width)
      exact ⟨⟨index, width, lines⟩, by rw [hbox]; rfl, rfl, rfl, hlines⟩

/-! ### Widths of plain cells -/

/-- Every line of a wrapped box fills the box. -/
theorem cells_of_mem_boxLines {anchor : Anchor} {width indent : Int} {text line : Text}
    (hwidth : 0 < width) (hline : line ∈ Text.boxLines anchor width indent text) :
    (Text.cells line : Int) = width := by
  have hempty : Text.spaces 0 = [] := rfl
  have hlt := keptIndent_lt hwidth indent
  generalize hkept : (if indent < width then indent else 0) = kept at hlt
  have hlead : ((Text.spaces kept).length : Int) ≤ width := by
    have hlength : (Text.spaces kept).length = kept.toNat := by simp [Text.spaces]
    omega
  simp only [Text.boxLines, hkept] at hline
  split at hline
  · cases hline
  · next first later _ =>
    rcases List.mem_cons.mp hline with rfl | hlater
    · rw [← hempty]
      exact Text.cells_boxLine (by rw [hempty]; exact Int.le_of_lt hwidth)
    · obtain ⟨plain, _, rfl⟩ := List.mem_map.mp hlater
      exact Text.cells_boxLine hlead

/-- A truncated text is as wide as the box once it is filled up. -/
theorem cells_padded_truncated {width : Int} (hwidth : 0 ≤ width) (anchor : Anchor) (text : Text)
    (edge : Edge) (marker : Text) :
    (Text.cells (Text.padded anchor (Text.truncated text width edge marker) width) : Int) =
      width := by
  have hle := Text.cells_truncated_le hwidth text edge marker
  rw [Text.cells_padded]
  omega

/-- Every line of a box is as wide as the box. -/
theorem cells_of_mem_plainLines {overflow : Overflow} {anchor : Anchor} {width : Int}
    {text line : Text} (hwidth : 0 < width) (hline : line ∈ overflow.plainLines anchor width text) :
    (Text.cells line : Int) = width := by
  have hnonneg : 0 ≤ width := Int.le_of_lt hwidth
  unfold Overflow.plainLines at hline
  split at hline
  · exact cells_of_mem_boxLines hwidth hline
  all_goals
    obtain rfl := List.mem_singleton.mp hline
    exact cells_padded_truncated hnonneg _ _ _ _

/-- Every line of a plain cell is as wide as the cell. -/
theorem cells_of_mem_drawPlain {text line : Text} {column : Column} {width index : Int}
    (hline : line ∈ (drawPlain text column width index).lines) :
    (Text.cells line : Int) = (drawPlain text column width index).width := by
  unfold drawPlain at hline ⊢
  by_cases hexpand : column.isExpand = true
  · rw [if_pos hexpand] at hline ⊢
    obtain rfl := List.mem_singleton.mp hline
    rw [Text.cells_padded]
    dsimp only
    omega
  · rw [if_neg hexpand] at hline ⊢
    by_cases hwidth : width ≤ 0
    · rw [if_pos hwidth] at hline ⊢
      obtain rfl := List.mem_singleton.mp hline
      rfl
    · rw [if_neg hwidth] at hline ⊢
      have hpositive : 0 < width := by omega
      exact cells_of_mem_plainLines hpositive hline

end Cell

end TextGrid
