import TextGrid.Proofs.CacheTransparency
import TextGrid.Proofs.PlainRows

/-!
# Measures and borders of plain text

A table is measured on the plain text of its headers and records. Its border, in any style, shows
glyphs that are one cell wide.
-/

namespace TextGrid

/-- Whether all columns of a spec can draw what a record has for them. -/
def Spec.IsDrawable (spec : Spec) (record : Value) : Prop :=
  ∀ entry ∈ spec.columns.zipIdx, Cell.IsDrawable record entry.1 entry.2

namespace Measured

open Markup

/-- The widths of the plain headers. -/
def plainHeaders (spec : Spec) : List Int :=
  spec.columns.map fun column => (Text.cells column.shownHeader : Int)

/-- The widths of a record's plain texts. -/
def plainRecord (spec : Spec) (value : Value) : List Nat :=
  spec.columns.zipIdx.map fun entry => Text.cells (Cell.shownIn value entry.1 entry.2)

/-- The width of the widest plain text of each column. -/
def plain (spec : Spec) (records : List Value) (withHeaders : Bool) : List Int :=
  records.foldl (fun widths value => widest widths (plainRecord spec value))
    (if withHeaders then plainHeaders spec else spec.columns.map fun _ => 0)

/-- Headers that can be drawn measure their plain texts. -/
theorem headers_eq {spec : Spec} (h : ∀ column ∈ spec.columns, column.HasHeader) :
    headers spec = .ok (plainHeaders spec) := by
  rw [headers, mapM_eq_ok_iff, plainHeaders, List.forall₂_map_right_iff]
  refine List.forall₂_same.mpr fun column hcolumn => ?_
  obtain ⟨header, plain, hvalue, hshows, htakes⟩ := h column hcolumn
  rw [Column.shownHeader_eq hvalue hshows, hvalue]
  simp only [Value.text?_text, hshows.displayWidth htakes.isWrappable.isCalm, lift_ok, ok_bind]
  rfl

/-- A record that can be drawn measures its plain texts. -/
theorem record_eq {spec : Spec} {value : Value} (h : spec.IsDrawable value) :
    record spec value = .ok (plainRecord spec value) := by
  rw [record, mapM_eq_ok_iff, plainRecord, List.forall₂_map_right_iff]
  refine List.forall₂_same.mpr ?_
  rintro ⟨column, index⟩ hentry
  obtain ⟨text, plain, htext, hshows, htakes⟩ := h _ hentry
  have hplain : Cell.shownIn value column index = plain := by
    rw [Cell.shownIn, htext]
    exact hshows.shown_eq
  rw [hplain]
  simp only [contentWidth, htext, ok_bind, hshows.displayWidth htakes.isWrappable.isCalm, lift_ok]

/-- Measuring a table measures the plain text of its headers and records. -/
theorem ofRecords_eq {spec : Spec} {records : List Value} {withHeaders : Bool}
    (hheaders : withHeaders = true → ∀ column ∈ spec.columns, column.HasHeader)
    (hrecords : ∀ record ∈ records, spec.IsDrawable record) :
    ofRecords spec records withHeaders = .ok (plain spec records withHeaders) := by
  have hrun : ∀ start : List Int,
      records.foldlM (fun widths value => do return widest widths (← record spec value)) start =
        (.ok (records.foldl (fun widths value => widest widths (plainRecord spec value)) start) :
          Except LayoutError (List Int)) := by
    induction records with
    | nil => exact fun start => rfl
    | cons value later ih =>
      obtain ⟨hvalue, hlater⟩ := List.forall_mem_cons.mp hrecords
      intro start
      rw [List.foldlM_cons, record_eq hvalue]
      exact ih hlater _
  unfold ofRecords plain
  cases withHeaders with
  | false => exact hrun _
  | true =>
    simp only [if_true, headers_eq (hheaders rfl), ok_bind]
    exact hrun _

end Measured

/-! ### Slots -/

/-- A slot stands at the position of its column. -/
theorem Formatter.mem_zipIdx_of_mem_slots {formatter : Formatter} {slot : Formatter.Slot}
    (h : slot ∈ formatter.slots) : (slot.column, slot.index) ∈ formatter.spec.columns.zipIdx := by
  obtain ⟨⟨⟨column, index⟩, width⟩, hentry, rfl⟩ := List.mem_map.mp h
  exact (List.of_mem_zip hentry).1

/-- The column of a slot is one of the spec. -/
theorem Formatter.column_mem_of_mem_slots {formatter : Formatter} {slot : Formatter.Slot}
    (h : slot ∈ formatter.slots) : slot.column ∈ formatter.spec.columns :=
  List.fst_mem_of_mem_zipIdx (mem_zipIdx_of_mem_slots h)

/-! ### Borders -/

/-- The rules of a border, from top to bottom. -/
def BorderGlyphs.rules (glyphs : BorderGlyphs) : List RuleGlyphs :=
  [glyphs.top, glyphs.middle, glyphs.bottom]

/-- The rule at the top is one of a border. -/
@[simp] theorem BorderGlyphs.top_mem_rules (glyphs : BorderGlyphs) : glyphs.top ∈ glyphs.rules := by
  simp [rules]

/-- The rule between rows is one of a border. -/
@[simp] theorem BorderGlyphs.middle_mem_rules (glyphs : BorderGlyphs) :
    glyphs.middle ∈ glyphs.rules := by
  simp [rules]

/-- The rule at the bottom is one of a border. -/
@[simp] theorem BorderGlyphs.bottom_mem_rules (glyphs : BorderGlyphs) :
    glyphs.bottom ∈ glyphs.rules := by
  simp [rules]

/-- The glyphs of a border. -/
def BorderGlyphs.chars (glyphs : BorderGlyphs) : List Char :=
  [glyphs.horizontal, glyphs.vertical] ++
    glyphs.rules.flatMap fun rule => [rule.left, rule.junction, rule.right]

/-- Border glyphs are ordinary code points of one cell. -/
theorem BorderStyle.isOrdinary_of_mem_chars {border : BorderStyle} {glyphs : BorderGlyphs}
    (h : border.glyphs? = some glyphs) :
    ∀ c ∈ glyphs.chars, Cluster.isOrdinary c = true ∧ Cluster.charWidth c = 1 ∧ c ≠ '[' := by
  have hall : glyphs.chars.all (fun c =>
      Cluster.isOrdinary c && (Cluster.charWidth c == 1) && c != '[') = true := by
    cases border with
    | none => cases h
    | ascii | light | heavy | double | rounded =>
      obtain rfl := Option.some.inj h
      decide +kernel
  simpa [and_assoc] using hall

namespace Decorations

open Markup

/-- The plain text of decorations. -/
def shown (decorations : Decorations) : Decorations where
  separator := Markup.shown decorations.separator
  leading := Markup.shown decorations.leading
  trailing := Markup.shown decorations.trailing

/-- Whether decorations show ordinary text. -/
structure IsOrdinary (decorations : Decorations) : Prop where
  separator : Markup.IsOrdinary decorations.separator
  leading : Markup.IsOrdinary decorations.leading
  trailing : Markup.IsOrdinary decorations.trailing

/-- Ordinary decorations draw what they show. -/
theorem IsOrdinary.draws {decorations : Decorations} (h : decorations.IsOrdinary) :
    decorations.Draws decorations.shown :=
  ⟨h.separator.draws, h.leading.draws, h.trailing.draws⟩

/-- Each decoration draws the plain one. -/
theorem Draws.part {decorations plain : Decorations} (h : decorations.Draws plain)
    (part : Decoration) : Markup.Draws (decorations.part part) (plain.part part) := by
  cases part with
  | separator => exact h.separator
  | leading => exact h.leading
  | trailing => exact h.trailing

/-- Decorations that draw plain ones have no fault. -/
theorem Draws.fault?_eq_none {decorations plain : Decorations} (h : decorations.Draws plain) :
    decorations.fault? = none := by
  have hpart : ∀ part, decorations.partFault? part = none := fun part => by
    rw [partFault?, (h.part part).displayWidth]
  simp [fault?, hpart]

end Decorations

/-- A decoration takes the cells of the plain one. -/
theorem Spec.partWidth_eq {spec : Spec} {plain : Decorations} (h : spec.decorations.Draws plain)
    (part : Decoration) : spec.partWidth part = Text.cells (plain.part part) := by
  rw [partWidth, (h.part part).displayWidth]

/-- Decorations that show something make a spec with any columns of whole cells. -/
theorem Spec.exists_make {decorations plain : Decorations} (h : decorations.Draws plain)
    {columns : List Column} (whole : columns.all (·.width.isWhole) = true) :
    ∃ spec, Spec.make columns decorations = .ok spec ∧ spec.columns = columns ∧
      spec.decorations = decorations := by
  refine ⟨⟨columns, decorations, h.fault?_eq_none, whole⟩, ?_, rfl, rfl⟩
  unfold Spec.make
  split
  · rw [dif_pos whole]
  · next fault hfault => exact absurd (h.fault?_eq_none.symm.trans hfault) (by simp)

/-- The plain decorations of a row in a border; without one they stay as they are. -/
def BorderStyle.decorations (border : BorderStyle) (otherwise : Decorations) : Decorations :=
  match border.glyphs? with
  | Option.none => otherwise
  | some glyphs =>
    { separator := [' ', glyphs.vertical, ' ']
      leading := [glyphs.vertical, ' ']
      trailing := [' ', glyphs.vertical] }

namespace TableStyle

open Markup

/-- A piece of border shows the same in any style. -/
theorem exists_glyphText {style : TableStyle} {piece plain : Text}
    (hstyle : Formatter.IsStyleName style.borderTag) (h : Draws piece plain) :
    ∃ drawn, style.glyphText piece = .ok drawn ∧ Draws drawn plain := by
  unfold glyphText
  rcases hstyle with hnull | ⟨name, hname, htag⟩
  · rw [hnull]
    exact ⟨piece, rfl, h⟩
  · rw [hname]
    exact ⟨Markup.style piece name, rfl, h.style htag⟩

/-- The glyphs of a border draw themselves. -/
theorem draws_of_mem_chars {border : BorderStyle} {glyphs : BorderGlyphs}
    (hglyphs : border.glyphs? = some glyphs) {text : Text} (h : text ⊆ glyphs.chars) :
    Draws text text := by
  have hchars := BorderStyle.isOrdinary_of_mem_chars hglyphs
  have hbare : '[' ∉ text := fun hmem => (hchars _ (h hmem)).2.2 rfl
  exact ⟨.of_bare hbare hbare, fun c hc => (hchars c (h hc)).1⟩

/-- A spec in a border has the same columns, and its decorations show the strokes of the border. -/
theorem exists_bordered {style : TableStyle} {spec : Spec}
    (hstyle : Formatter.IsStyleName style.borderTag) (h : spec.decorations.IsOrdinary) :
    ∃ bordered, style.bordered spec = .ok bordered ∧ bordered.columns = spec.columns ∧
      bordered.decorations.Draws (style.border.decorations spec.decorations.shown) := by
  unfold bordered BorderStyle.decorations
  cases hglyphs : style.border.glyphs? with
  | none => exact ⟨spec, rfl, rfl, h.draws⟩
  | some glyphs =>
    have hglyph : Draws [glyphs.vertical] [glyphs.vertical] :=
      draws_of_mem_chars hglyphs (by simp [BorderGlyphs.chars])
    obtain ⟨stroke, hdrawn, hstroke⟩ := exists_glyphText hstyle hglyph
    have hspace := Formatter.draws_space
    have hdecorations : Decorations.Draws
        { separator := ' ' :: stroke ++ [' ']
          leading := stroke ++ [' ']
          trailing := ' ' :: stroke }
        { separator := [' ', glyphs.vertical, ' ']
          leading := [glyphs.vertical, ' ']
          trailing := [' ', glyphs.vertical] } :=
      { separator := (hspace.append hstroke).append hspace
        leading := hstroke.append hspace
        trailing := hspace.append hstroke }
    obtain ⟨bordered, hmake, hcolumns, hsame⟩ := Spec.exists_make hdecorations spec.whole
    refine ⟨bordered, ?_, hcolumns, by rw [hsame]; exact hdecorations⟩
    simp only [hdrawn, ok_bind]
    exact hmake

/-- The decorations of a rule are bare glyphs. -/
theorem ruleDecorations_draws {border : BorderStyle} {glyphs : BorderGlyphs}
    (hglyphs : border.glyphs? = some glyphs) {rule : RuleGlyphs}
    (hrule : rule ∈ glyphs.rules) :
    (ruleDecorations glyphs.horizontal rule).Draws (ruleDecorations glyphs.horizontal rule) := by
  have hmem : ∀ c ∈ [rule.left, rule.junction, rule.right], c ∈ glyphs.chars := fun c hc =>
    List.mem_append_right _ (List.mem_flatMap.mpr ⟨rule, hrule, hc⟩)
  have hhorizontal : glyphs.horizontal ∈ glyphs.chars := by simp [BorderGlyphs.chars]
  have hleft := hmem rule.left (by simp)
  have hjunction := hmem rule.junction (by simp)
  have hright := hmem rule.right (by simp)
  constructor <;> exact draws_of_mem_chars hglyphs (by simp [ruleDecorations, *])

end TableStyle

namespace Table

section Measured

variable {cache : WidthCache} (hcache : cache.Coherent) (hcapacity : 0 ≤ cache.capacity)
  {table : Table} {records : List Value} {measured : List Int}
  (hmeasured : Measured.ofRecords table.spec (records ++ table.style.footer.toList)
    table.style.header = .ok measured)

include hcache hcapacity hmeasured

/-- A table gets a formatter with the widths that its measures resolve to, whatever a coherent cache
holds. -/
theorem formatter_eq :
    (table.formatter cache records).1 =
      (Widths.resolve table.spec table.total (some measured)).map fun widths =>
        ⟨table.spec, table.total, some measured, widths⟩ := by
  have hresolve :=
    CacheUse.resolve_of_coherent hcache hcapacity table.spec table.total (some measured)
  simp only [formatter, Formatter.forRecords, hmeasured, Formatter.bind]
  rw [hresolve]

/-- A table is rendered from the widths that its measures resolve to. -/
theorem render_eq :
    (table.render cache records).1 =
      (Widths.resolve table.spec table.total (some measured)).bind fun widths =>
        (lines table.style ⟨table.spec, table.total, some measured, widths⟩ records).map
          Formatter.joinLines := by
  have hformatter := formatter_eq hcache hcapacity hmeasured
  simp only [render]
  rw [hformatter]
  cases Widths.resolve table.spec table.total (some measured) <;> rfl

end Measured

/-- A rendered table has a formatter, and its lines put together are the text. -/
theorem lines_of_render {cache : WidthCache} {table : Table} {records : List Value} {text : Text}
    (h : (table.render cache records).1 = .ok text) :
    ∃ formatter found, (table.formatter cache records).1 = .ok formatter ∧
      lines table.style formatter records = .ok found ∧ text = Formatter.joinLines found := by
  simp only [render] at h
  cases hformatter : (table.formatter cache records).1 with
  | error fault =>
    rw [hformatter] at h
    cases h
  | ok formatter =>
    rw [hformatter] at h
    cases hlines : lines table.style formatter records with
    | error fault =>
      simp only [Except.bind, hlines] at h
      cases h
    | ok found =>
      simp only [Except.bind, hlines] at h
      exact ⟨formatter, found, rfl, hlines, (Except.ok.inj h).symm⟩

/-- The formatter of a table is bound to its spec and total width, is measured on all that the table
shows, and has the widths that this resolves to. -/
theorem formatter_spec {cache : WidthCache} (hcache : cache.Coherent)
    (hcapacity : 0 ≤ cache.capacity) {table : Table} {records : List Value} {formatter : Formatter}
    (h : (table.formatter cache records).1 = .ok formatter) :
    formatter.spec = table.spec ∧ formatter.total = table.total ∧
      ∃ measured, Measured.ofRecords table.spec (records ++ table.style.footer.toList)
          table.style.header = .ok measured ∧ formatter.measured = some measured ∧
        Widths.resolve table.spec table.total (some measured) = .ok formatter.widths := by
  cases hmeasured : Measured.ofRecords table.spec (records ++ table.style.footer.toList)
      table.style.header with
  | error fault =>
    simp only [Table.formatter, Formatter.forRecords, hmeasured] at h
    cases h
  | ok measured =>
    rw [formatter_eq hcache hcapacity hmeasured] at h
    cases hresolve : Widths.resolve table.spec table.total (some measured) with
    | error fault =>
      rw [hresolve] at h
      cases h
    | ok widths =>
      rw [hresolve] at h
      obtain rfl := Except.ok.inj h
      exact ⟨rfl, rfl, measured, rfl, rfl, hresolve⟩

/-- The lines of a record, of a rule if there is one, and of the later records. -/
theorem bodyLines_cons_cons (style : TableStyle) (formatter : Formatter) (record next : Value)
    (later : List Value) :
    bodyLines style formatter (record :: next :: later) =
      if style.rowSeparator then do
        let lines ← formatter.rowLines record
        let rule ← style.ruleLines formatter (·.middle)
        return lines ++ rule ++ (← bodyLines style formatter (next :: later))
      else do
        let lines ← formatter.rowLines record
        return lines ++ (← bodyLines style formatter (next :: later)) := by
  rw [bodyLines]
  · cases style.rowSeparator <;> simp
  · simp

end Table

/-! ### A table of two columns -/

/-- A column of short names in one style. -/
def Column.names : Column where
  name := .text ['n', 'a', 'm', 'e']
  width := .fixed 4
  style := some (.named ['b'])
  sound := rfl

/-- A column of wrapped notes at the right end, each in the style that it names. -/
def Column.notes : Column where
  name := .text ['n', 'o', 't', 'e']
  width := .bounded (.int 2) (.int 6)
  overflow := .wrap (.int 1)
  anchor := .right
  style := some .fromValue
  sound := rfl

/-- Names and notes. -/
def Spec.notes : Spec where
  columns := [.names, .notes]
  decorations := {}
  sound := Decorations.fault?_default
  whole := rfl

namespace Spec

open Markup

/-- The columns of names and notes have ordinary overflow rules. -/
theorem isOrdinary_notes : ∀ column ∈ notes.columns, column.overflow.IsOrdinary := by
  have hmarker : Markup.IsOrdinary defaultMarker := ⟨defaultMarker, by decide +kernel⟩
  have hnames : Column.names.overflow.IsOrdinary := ⟨defaultMarker, rfl, hmarker⟩
  have hnotes : Column.notes.overflow.IsOrdinary := fun number hnumber => by cases hnumber
  simpa [notes] using ⟨hnames, hnotes⟩

/-- The columns of names and notes have headers. -/
theorem hasHeader_notes : ∀ column ∈ notes.columns, column.HasHeader := by
  have hnames : Column.names.HasHeader :=
    ⟨['n', 'a', 'm', 'e'], ['n', 'a', 'm', 'e'], rfl, by decide +kernel,
      (by decide +kernel : Text.IsOrdinary _)⟩
  have hnotes : Column.notes.HasHeader :=
    ⟨['n', 'o', 't', 'e'], ['n', 'o', 't', 'e'], rfl, by decide +kernel,
      (by decide +kernel : Text.IsWrappable _)⟩
  simpa [notes] using ⟨hnames, hnotes⟩

/-- The decorations of names and notes are ordinary. -/
theorem isOrdinary_decorations_notes : notes.decorations.IsOrdinary :=
  ⟨⟨[' '], by decide +kernel⟩, ⟨[], by decide +kernel⟩, ⟨[], by decide +kernel⟩⟩

end Spec

end TextGrid
