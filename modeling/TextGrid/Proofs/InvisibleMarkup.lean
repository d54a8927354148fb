import TextGrid.Proofs.PlainTables

/-!
# Markup is invisible to layout

A table with styles and marked-up rows, and the same table without styles over the rows stripped of
their markup, show the same text. Both runs draw the same cells of plain text at the same widths, so
they also fail together.
-/

namespace TextGrid

/-! ### Tables without tags -/

/-- A column without its style. -/
def Column.unstyled (column : Column) : Column where
  toColumnLayout := { column.toColumnLayout with style := none }
  sound := by
    obtain ⟨hwidth, hoverflow, _, hkey⟩ := ColumnLayout.fault?_eq_none_iff.mp column.sound
    exact ColumnLayout.fault?_eq_none_iff.mpr ⟨hwidth, hoverflow, rfl, hkey⟩

/-- A spec without the styles of its columns. -/
def Spec.unstyled (spec : Spec) : Spec where
  columns := spec.columns.map Column.unstyled
  decorations := spec.decorations
  sound := spec.sound
  whole := by rw [List.all_map]; exact spec.whole

/-- A text value stripped of its markup. -/
def Value.stripText : Value → Value
  | .text content => .text (Markup.shown content)
  | value => value

/-- A positional row with its texts stripped of their markup. -/
def Value.stripRow : Value → Value
  | .list items => .list (items.map stripText)
  | .tuple items => .tuple (items.map stripText)
  | other => other

/-- The look of a table without the styles of its header and border, its footer stripped. -/
def TableStyle.untagged (style : TableStyle) : TableStyle :=
  { style with
    headerStyle := .null
    borderTag := .null
    footer := style.footer.map Value.stripRow }

/-- Whether a record is a positional row of texts that its columns can draw. -/
def Spec.IsMarkedRow (spec : Spec) (record : Value) : Prop :=
  ∃ texts : List Text,
    (record = .list (texts.map .text) ∨ record = .tuple (texts.map .text)) ∧
      ∀ entry ∈ spec.columns.zipIdx, ∀ text, texts[entry.2]? = some text →
        ∃ plain, Markup.ShowsWithout '[' text plain ∧ entry.1.overflow.Takes plain

namespace Cell

open Markup

/-- A position that does not count from the end gives the item there. -/
theorem itemFrom_natCast {α : Type} {items : List α} {index : Nat} {item : α}
    (h : items[index]? = some item) : itemFrom items index = .ok item := by
  have hindex : ¬ (index : Int) < 0 := by omega
  simp only [itemFrom, if_neg hindex, Int.toNat_natCast, h]

/-- A positional row of texts is read by position, and lacks nothing but its missing texts. -/
theorem textIn_row {record : Value} {texts : List Text}
    (h : record = .list (texts.map .text) ∨ record = .tuple (texts.map .text)) (column : Column)
    (index : Nat) : textIn record column index = .ok (texts[index]?.getD []) := by
  have hitems : rowItems? record = some (texts.map .text) := by
    rcases h with rfl | rfl <;> rfl
  unfold textIn lookup
  rw [hitems]
  dsimp only
  cases htext : texts[index]? with
  | some text =>
    have hinside : (index : Int) < ((texts.map Value.text).length : Int) := by
      obtain ⟨hindex, _⟩ := List.getElem?_eq_some_iff.mp htext
      simpa using hindex
    have hitem : (texts.map Value.text)[index]? = some (.text text) := by simp [htext]
    rw [if_pos hinside, itemFrom_natCast hitem]
    rfl
  | none =>
    have houtside : ¬ (index : Int) < ((texts.map Value.text).length : Int) := by
      simpa using List.getElem?_eq_none_iff.mp htext
    rw [if_neg houtside]
    rfl

/-- A row of texts stripped of markup is a row of what they show. -/
theorem stripRow_row {record : Value} {texts : List Text}
    (h : record = .list (texts.map .text) ∨ record = .tuple (texts.map .text)) :
    record.stripRow = .list ((texts.map shown).map .text) ∨
      record.stripRow = .tuple ((texts.map shown).map .text) := by
  rcases h with rfl | rfl
  · left
    simp [Value.stripRow, Value.stripText]
  · right
    simp [Value.stripRow, Value.stripText]

end Cell

namespace Spec

open Markup

/-- A row of texts can be drawn, so can the row stripped of its markup, and both show the same. -/
theorem IsMarkedRow.spec {spec : Spec} {record : Value} (h : spec.IsMarkedRow record) :
    ∀ entry ∈ spec.columns.zipIdx, Cell.IsDrawable record entry.1 entry.2 ∧
      Cell.IsDrawable record.stripRow entry.1.unstyled entry.2 ∧
      Cell.shownIn record.stripRow entry.1.unstyled entry.2 =
        Cell.shownIn record entry.1 entry.2 := by
  obtain ⟨texts, hrow, htexts⟩ := h
  intro entry hentry
  obtain ⟨plain, hshows, htakes⟩ : ∃ plain, ShowsWithout '[' (texts[entry.2]?.getD []) plain ∧
      entry.1.overflow.Takes plain := by
    cases htext : texts[entry.2]? with
    | none => exact ⟨[], ShowsWithout.nil, Overflow.takes_of_isOrdinary _ Text.isOrdinary_nil⟩
    | some text => exact htexts entry hentry text htext
  have htext := Cell.textIn_row hrow entry.1 entry.2
  have hstripped := Cell.textIn_row (Cell.stripRow_row hrow) entry.1.unstyled entry.2
  have hplain : (texts.map shown)[entry.2]?.getD [] = plain := by
    rw [List.getElem?_map, ← hshows.shown_eq]
    cases texts[entry.2]? with
    | none => rfl
    | some text => rfl
  rw [hplain] at hstripped
  refine ⟨⟨_, plain, htext, hshows, htakes⟩, ⟨_, plain, hstripped, hshows.plain_self, htakes⟩, ?_⟩
  simp only [Cell.shownIn, htext, hstripped, hshows.shown_eq, hshows.plain_self.shown_eq]

end Spec

namespace Formatter

open Markup

/-- Whether a formatter is another one without the styles of its columns, and both have decorations
that show `plain`. -/
structure Untags (untagged formatter : Formatter) (plain : Decorations) : Prop where
  columns : untagged.spec.columns = formatter.spec.columns.map Column.unstyled
  total : untagged.total = formatter.total
  widths : untagged.widths = formatter.widths
  decorations : formatter.spec.decorations.Draws plain
  untaggedDecorations : untagged.spec.decorations.Draws plain

/-- A slot without the style of its column. -/
def Slot.unstyled (slot : Slot) : Slot :=
  { slot with column := slot.column.unstyled }

/-- Cells keep to the anchors of their columns in any style. -/
theorem groupLines_unstyled (anchor : Anchor) (columns : List Column) (cells : List Cell)
    (position : Nat) :
    groupLines anchor ((columns.map Column.unstyled).zip cells) position =
      groupLines anchor (columns.zip cells) position := by
  unfold groupLines
  induction columns generalizing cells with
  | nil => rfl
  | cons column later ih =>
    cases cells with
    | nil => rfl
    | cons cell cells =>
      have hanchor : column.unstyled.anchor = column.anchor := rfl
      simp only [List.map_cons, List.zip_cons_cons, List.filter_cons, hanchor]
      split
      · simp only [List.map_cons, ih]
      · exact ih cells

variable {formatter untagged : Formatter} {plain : Decorations}

namespace Untags

/-- Without tags there are the same slots, their columns without styles. -/
theorem slots_eq (h : untagged.Untags formatter plain) :
    untagged.slots = formatter.slots.map Slot.unstyled := by
  simp only [slots, h.columns, h.widths, List.zipIdx_map, List.zip_map_left, List.map_map]
  rfl

/-- Without tags a formatter draws when it does with them. -/
theorem draws_eq (h : untagged.Untags formatter plain) : untagged.draws = formatter.draws := by
  simp only [draws, h.columns, h.total, List.isEmpty_map]

/-- Without tags cells are assembled to the same lines. -/
theorem assemble_eq (h : untagged.Untags formatter plain) (cells : List Cell)
    (decorations : Decorations) (fill : Text) :
    untagged.assemble cells decorations fill = formatter.assemble cells decorations fill := by
  simp only [assemble, h.columns, h.total, groupLines_unstyled]

/-- Without tags cells make the same plain row. -/
theorem plainRow_eq (h : untagged.Untags formatter plain) (cells : List Cell) :
    untagged.plainRow plain cells = formatter.plainRow plain cells := by
  simp only [plainRow, plainAssemble, h.draws_eq, h.columns, h.total, groupLines_unstyled]

/-- Without tags a rule is the same. -/
theorem rule_eq (h : untagged.Untags formatter plain) (fill : Text) (decorations : Decorations) :
    untagged.rule fill decorations = formatter.rule fill decorations := by
  have hcells : untagged.slots.map (fun slot =>
        (⟨slot.index, slot.width, [Text.repeated fill slot.width]⟩ : Cell)) =
      formatter.slots.map fun slot =>
        ⟨slot.index, slot.width, [Text.repeated fill slot.width]⟩ := by
    rw [h.slots_eq, List.map_map]
    rfl
  simp only [rule, h.draws_eq, hcells, h.assemble_eq]

/-- Without tags headers have the same plain cells. -/
theorem plainHeaders_eq (h : untagged.Untags formatter plain) :
    untagged.plainHeaders = formatter.plainHeaders := by
  rw [plainHeaders, h.slots_eq, List.map_map]
  rfl

/-- A marked row and the row stripped of its markup have the same plain cells. -/
theorem plainCells_eq (h : untagged.Untags formatter plain) {record : Value}
    (hrecord : formatter.spec.IsMarkedRow record) :
    untagged.plainCells record.stripRow = formatter.plainCells record := by
  rw [plainCells, h.slots_eq, List.map_map, plainCells]
  refine List.map_congr_left fun slot hslot => ?_
  obtain ⟨_, _, hshown⟩ := hrecord.spec _ (mem_zipIdx_of_mem_slots hslot)
  simp only [Function.comp, Slot.unstyled, hshown]
  exact Cell.drawPlain_congr _ rfl rfl _ _

end Untags

/-! ### Lines that show the same -/

/-- Whether two runs give as many lines that show the same ordinary text. -/
def LinesAlike (first second : Except LayoutError (List Text)) : Prop :=
  ∃ lines lines' plains, first = .ok lines ∧ second = .ok lines' ∧
    List.Forall₂ Draws lines plains ∧ List.Forall₂ Draws lines' plains

/-- Runs without lines show the same. -/
theorem linesAlike_nil : LinesAlike (.ok []) (.ok []) :=
  ⟨[], [], [], rfl, rfl, .nil, .nil⟩

/-- Lines that show the same, one run after another. -/
theorem LinesAlike.append {first second first' second' : Except LayoutError (List Text)}
    (h : LinesAlike first second) (h' : LinesAlike first' second') :
    LinesAlike (do return (← first) ++ (← first')) (do return (← second) ++ (← second')) := by
  obtain ⟨lines, others, plains, rfl, rfl, hlines, hothers⟩ := h
  obtain ⟨lines', others', plains', rfl, rfl, hlines', hothers'⟩ := h'
  exact ⟨lines ++ lines', others ++ others', plains ++ plains', rfl, rfl,
    List.rel_append hlines hlines', List.rel_append hothers hothers'⟩

section Runs

variable {style : TableStyle} (h : untagged.Untags formatter plain)
  (hcolumns : ∀ column ∈ formatter.spec.columns, column.overflow.IsOrdinary)

include h hcolumns

/-- The lines of a marked row show the same without tags. -/
theorem rowLines_alike {record : Value} (hrecord : formatter.spec.IsMarkedRow record) :
    LinesAlike (formatter.rowLines record) (untagged.rowLines record.stripRow) := by
  have hdrawable := hrecord.spec
  obtain ⟨lines, hlines, hdraws⟩ := rowLines_draws h.decorations
    (fun slot hslot => hcolumns _ (column_mem_of_mem_slots hslot))
    (fun slot hslot => (hdrawable _ (mem_zipIdx_of_mem_slots hslot)).1)
  have huntaggedColumns : ∀ slot ∈ untagged.slots, slot.column.overflow.IsOrdinary := by
    rw [h.slots_eq]
    intro slot hslot
    obtain ⟨styled, hstyled, rfl⟩ := List.mem_map.mp hslot
    have hordinary := hcolumns styled.column (column_mem_of_mem_slots hstyled)
    exact hordinary
  have huntaggedRecord : ∀ slot ∈ untagged.slots,
      Cell.IsDrawable record.stripRow slot.column slot.index := by
    rw [h.slots_eq]
    intro slot hslot
    obtain ⟨styled, hstyled, rfl⟩ := List.mem_map.mp hslot
    exact (hdrawable _ (mem_zipIdx_of_mem_slots hstyled)).2.1
  obtain ⟨lines', hlines', hdraws'⟩ :=
    rowLines_draws h.untaggedDecorations huntaggedColumns huntaggedRecord
  rw [h.plainCells_eq hrecord, h.plainRow_eq] at hdraws'
  exact ⟨lines, lines', _, hlines, hlines', hdraws, hdraws'⟩

/-- The lines of the headers show the same without tags. -/
theorem headerLines_alike (hstyle : IsStyleName style.headerStyle)
    (hheaders : ∀ column ∈ formatter.spec.columns, column.HasHeader) :
    LinesAlike (formatter.headerLines style.headerStyle)
      (untagged.headerLines style.untagged.headerStyle) := by
  obtain ⟨lines, hlines, hdraws⟩ := headerLines_draws h.decorations hstyle
    (fun slot hslot => hcolumns _ (column_mem_of_mem_slots hslot))
    (fun slot hslot => hheaders _ (column_mem_of_mem_slots hslot))
  have huntaggedColumns : ∀ slot ∈ untagged.slots,
      slot.column.overflow.IsOrdinary ∧ slot.column.HasHeader := by
    rw [h.slots_eq]
    intro slot hslot
    obtain ⟨styled, hstyled, rfl⟩ := List.mem_map.mp hslot
    have hmem := column_mem_of_mem_slots hstyled
    have hboth := And.intro (hcolumns styled.column hmem) (hheaders styled.column hmem)
    exact hboth
  obtain ⟨lines', hlines', hdraws'⟩ := headerLines_draws h.untaggedDecorations (Or.inl rfl)
    (fun slot hslot => (huntaggedColumns slot hslot).1)
    (fun slot hslot => (huntaggedColumns slot hslot).2)
  rw [h.plainHeaders_eq, h.plainRow_eq] at hdraws'
  exact ⟨lines, lines', _, hlines, hlines', hdraws, hdraws'⟩

omit hcolumns in
/-- A rule shows the same without tags. -/
theorem ruleLines_alike (hstyle : IsStyleName style.borderTag)
    {choose : BorderGlyphs → RuleGlyphs}
    (hchoose : ∀ glyphs : BorderGlyphs, choose glyphs ∈ glyphs.rules) :
    LinesAlike (style.ruleLines formatter choose) (style.untagged.ruleLines untagged choose) := by
  have hborder : style.untagged.border = style.border := rfl
  unfold TableStyle.ruleLines
  rw [hborder]
  cases hglyphs : style.border.glyphs? with
  | none => exact linesAlike_nil
  | some glyphs =>
    have hfill : Draws [glyphs.horizontal] [glyphs.horizontal] :=
      TableStyle.draws_of_mem_chars hglyphs (by simp [BorderGlyphs.chars])
    obtain ⟨line, hrule, hline⟩ :=
      formatter.rule_draws hfill (TableStyle.ruleDecorations_draws hglyphs (hchoose glyphs))
    simp only [h.rule_eq, hrule, ok_bind]
    by_cases hempty : line.isEmpty = true
    · rw [if_pos hempty, if_pos hempty]
      exact linesAlike_nil
    · rw [if_neg hempty, if_neg hempty]
      obtain ⟨styled, hstyled, hdraws⟩ := TableStyle.exists_glyphText hstyle hline
      rw [hstyled]
      exact ⟨[styled], [line], [_], rfl, rfl, .cons hdraws .nil, .cons hline .nil⟩

end Runs

end Formatter

namespace Table

open Formatter Markup

section Runs

variable {formatter untagged : Formatter} {plain : Decorations} {style : TableStyle}
  (h : untagged.Untags formatter plain)
  (hcolumns : ∀ column ∈ formatter.spec.columns, column.overflow.IsOrdinary)
  (hborder : IsStyleName style.borderTag)

include h hcolumns hborder

/-- The lines of the records show the same without tags. -/
theorem bodyLines_alike {records : List Value}
    (hrecords : ∀ record ∈ records, formatter.spec.IsMarkedRow record) :
    LinesAlike (bodyLines style formatter records)
      (bodyLines style.untagged untagged (records.map Value.stripRow)) := by
  induction records with
  | nil => exact linesAlike_nil
  | cons record later ih =>
    obtain ⟨hrecord, hlater⟩ := List.forall_mem_cons.mp hrecords
    have hrow := rowLines_alike h hcolumns hrecord
    have hrule : LinesAlike (style.ruleLines formatter (·.middle))
        (style.untagged.ruleLines untagged (·.middle)) :=
      ruleLines_alike h hborder fun glyphs => by simp
    have hsame : style.untagged.rowSeparator = style.rowSeparator := rfl
    cases later with
    | nil => exact hrow
    | cons next others =>
      have hbody := ih hlater
      rw [List.map_cons] at hbody ⊢
      rw [List.map_cons, bodyLines_cons_cons, bodyLines_cons_cons, hsame]
      cases style.rowSeparator with
      | true =>
        have hall := (hrow.append hrule).append hbody
        simp only [bind_assoc, pure_bind] at hall
        exact hall
      | false => exact hrow.append hbody

/-- The lines of the footer show the same without tags. -/
theorem footerLines_alike (hfooter : ∀ record ∈ style.footer, formatter.spec.IsMarkedRow record) :
    LinesAlike (footerLines style formatter) (footerLines style.untagged untagged) := by
  unfold footerLines TableStyle.untagged
  cases hrecord : style.footer with
  | none => exact linesAlike_nil
  | some record =>
    have hrule : LinesAlike (style.ruleLines formatter (·.middle))
        (style.untagged.ruleLines untagged (·.middle)) :=
      ruleLines_alike h hborder fun glyphs => by simp
    exact hrule.append (rowLines_alike h hcolumns (hfooter record hrecord))

/-- All lines of a table show the same text without tags. -/
theorem lines_alike {records : List Value}
    (hheaders : style.header = true → ∀ column ∈ formatter.spec.columns, column.HasHeader)
    (hstyle : IsStyleName style.headerStyle)
    (hrecords : ∀ record ∈ records, formatter.spec.IsMarkedRow record)
    (hfooter : ∀ record ∈ style.footer, formatter.spec.IsMarkedRow record) :
    LinesAlike (lines style formatter records)
      (lines style.untagged untagged (records.map Value.stripRow)) := by
  have hrule : ∀ choose : BorderGlyphs → RuleGlyphs,
      (∀ glyphs : BorderGlyphs, choose glyphs ∈ glyphs.rules) →
      LinesAlike (style.ruleLines formatter choose) (style.untagged.ruleLines untagged choose) :=
    fun choose hchoose => ruleLines_alike h hborder hchoose
  have htop := hrule (·.top) fun glyphs => by simp
  have hmiddle := hrule (·.middle) fun glyphs => by simp
  have hbottom := hrule (·.bottom) fun glyphs => by simp
  have hheader : LinesAlike (headerLines style formatter)
      (headerLines style.untagged untagged) := by
    have hsame : style.untagged.header = style.header := rfl
    unfold headerLines
    rw [hsame]
    cases hflag : style.header with
    | true => exact (headerLines_alike h hcolumns hstyle (hheaders hflag)).append hmiddle
    | false => exact linesAlike_nil
  have hbody := bodyLines_alike h hcolumns hborder hrecords
  have hfoot := footerLines_alike h hcolumns hborder hfooter
  have hall := (((htop.append hheader).append hbody).append hfoot).append hbottom
  simp only [bind_assoc, pure_bind] at hall
  exact hall

end Runs

end Table

namespace Measured

/-- A table without tags measures the same. -/
theorem plain_untagged {spec untagged : Spec}
    (hcolumns : untagged.columns = spec.columns.map Column.unstyled) {records : List Value}
    (hrecords : ∀ record ∈ records, spec.IsMarkedRow record) (withHeaders : Bool) :
    plain untagged (records.map Value.stripRow) withHeaders = plain spec records withHeaders := by
  have hheaders : plainHeaders untagged = plainHeaders spec := by
    rw [plainHeaders, hcolumns, List.map_map]
    rfl
  have hzero : (untagged.columns.map fun _ => (0 : Int)) = spec.columns.map fun _ => 0 := by
    rw [hcolumns, List.map_map]
    rfl
  have hrecord : ∀ record ∈ records, plainRecord untagged record.stripRow =
      plainRecord spec record := by
    intro record hmem
    rw [plainRecord, hcolumns, List.zipIdx_map, List.map_map, plainRecord]
    refine List.map_congr_left fun entry hentry => ?_
    obtain ⟨_, _, hshown⟩ := (hrecords record hmem).spec entry hentry
    simp only [Function.comp, Prod.map, id_eq, hshown]
  unfold plain
  rw [hheaders, hzero, List.foldl_map]
  refine List.foldl_ext _ _ _ fun widths record hmem => ?_
  rw [hrecord record hmem]

/-- Measuring a table with tags and the same table without tags gives the same widths. -/
theorem ofRecords_untagged {spec untagged : Spec}
    (hcolumns : untagged.columns = spec.columns.map Column.unstyled)
    (hheaders : ∀ column ∈ spec.columns, column.HasHeader) {records : List Value}
    (hrecords : ∀ record ∈ records, spec.IsMarkedRow record) (withHeaders : Bool) :
    ∃ measured, ofRecords spec records withHeaders = .ok measured ∧
      ofRecords untagged (records.map Value.stripRow) withHeaders = .ok measured := by
  refine ⟨plain spec records withHeaders, ?_, ?_⟩
  · exact ofRecords_eq (fun _ => hheaders) fun record hrecord entry hentry =>
      ((hrecords record hrecord).spec entry hentry).1
  · rw [← plain_untagged hcolumns hrecords]
    refine ofRecords_eq (fun _ => ?_) ?_
    · rw [hcolumns]
      intro column hcolumn
      obtain ⟨styled, hstyled, rfl⟩ := List.mem_map.mp hcolumn
      have hheader := hheaders styled hstyled
      exact hheader
    · intro record hrecord
      obtain ⟨marked, hmarked, rfl⟩ := List.mem_map.mp hrecord
      rw [Spec.IsDrawable, hcolumns, List.zipIdx_map]
      intro entry hentry
      obtain ⟨styled, hstyled, rfl⟩ := List.mem_map.mp hentry
      exact ((hrecords marked hmarked).spec styled hstyled).2.1

end Measured

/-- A spec without styles is resolved alike beside decorations that show the same. -/
theorem Widths.resolve_untagged {spec untagged : Spec} {plain : Decorations}
    (hcolumns : untagged.columns = spec.columns.map Column.unstyled)
    (h : spec.decorations.Draws plain) (huntagged : untagged.decorations.Draws plain)
    (total : Int) (measured : Measured) :
    resolve untagged total measured = resolve spec total measured := by
  have hasks : List.Forall₂ Column.AsksLike untagged.columns spec.columns := by
    rw [hcolumns, List.forall₂_map_left_iff]
    exact List.forall₂_same.mpr fun column _ => ⟨rfl, rfl, fun _ => rfl⟩
  refine resolve_congr hasks (Spec.overhead_congr hasks.length_eq fun part => ?_) total measured
  rw [Spec.partWidth_eq h, Spec.partWidth_eq huntagged]

/-- A marked row is one for every spec with the same columns. -/
theorem Spec.IsMarkedRow.congr {spec other : Spec} {record : Value}
    (hcolumns : other.columns = spec.columns) (h : spec.IsMarkedRow record) :
    other.IsMarkedRow record := by
  rwa [IsMarkedRow, hcolumns]

namespace Table

open Markup

/-- Markup is invisible to layout. A table with any styles over rows of marked-up texts, and the
table without styles over the rows stripped of their markup, either fail with the same error or show
the same text, whatever coherent caches they go through. -/
theorem render_untagged {spec : Spec} {style : TableStyle} {records : List Value}
    {cache other : WidthCache} (total : Int)
    (hcolumns : ∀ column ∈ spec.columns, column.overflow.IsOrdinary)
    (hheaders : ∀ column ∈ spec.columns, column.HasHeader)
    (hdecorations : spec.decorations.IsOrdinary)
    (hstyle : Formatter.IsStyleName style.headerStyle)
    (hborder : Formatter.IsStyleName style.borderTag)
    (hrecords : ∀ record ∈ records, spec.IsMarkedRow record)
    (hfooter : ∀ record ∈ style.footer, spec.IsMarkedRow record)
    (hcache : cache.Coherent) (hcapacity : 0 ≤ cache.capacity)
    (hother : other.Coherent) (hroom : 0 ≤ other.capacity) :
    ∃ table untagged, make spec total style = .ok table ∧
      make spec.unstyled total style.untagged = .ok untagged ∧
      ((∃ fault, (table.render cache records).1 = .error fault ∧
          (untagged.render other (records.map Value.stripRow)).1 = .error fault) ∨
        ∃ text text' plain, (table.render cache records).1 = .ok text ∧
          (untagged.render other (records.map Value.stripRow)).1 = .ok text' ∧
          strip text = .ok plain ∧ strip text' = .ok plain) := by
  obtain ⟨bordered, hbordered, hsame, hdraws⟩ :=
    TableStyle.exists_bordered hborder hdecorations
  have huntaggedBorder : Formatter.IsStyleName style.untagged.borderTag := Or.inl rfl
  have huntaggedDecorations : spec.unstyled.decorations.IsOrdinary := hdecorations
  obtain ⟨bare, hbare, hsameBare, hdrawsBare⟩ :=
    TableStyle.exists_bordered huntaggedBorder huntaggedDecorations
  have hbareColumns : bare.columns = bordered.columns.map Column.unstyled := by
    rw [hsameBare, hsame]
    rfl
  refine ⟨⟨bordered, total, style⟩, ⟨bare, total, style.untagged⟩, by simp [make, hbordered],
    by simp [make, hbare], ?_⟩
  rw [← hsame] at hcolumns hheaders
  have hrecords := fun record hrecord => (hrecords record hrecord).congr hsame
  have hfooter := fun record hrecord => (hfooter record hrecord).congr hsame
  have hall : ∀ record ∈ records ++ style.footer.toList, bordered.IsMarkedRow record :=
    List.forall_mem_append.mpr ⟨hrecords, fun record hmem => hfooter record (by simpa using hmem)⟩
  have hstripped : records.map Value.stripRow ++ style.untagged.footer.toList =
      (records ++ style.footer.toList).map Value.stripRow := by
    rw [List.map_append]
    cases hrecord : style.footer <;> simp [TableStyle.untagged, hrecord]
  obtain ⟨measured, hmeasured, hmeasuredBare⟩ :=
    Measured.ofRecords_untagged hbareColumns hheaders hall style.header
  rw [← hstripped] at hmeasuredBare
  rw [render_eq hcache hcapacity hmeasured, render_eq hother hroom hmeasuredBare,
    Widths.resolve_untagged hbareColumns hdraws hdrawsBare]
  cases Widths.resolve bordered total (some measured) with
  | error fault => exact Or.inl ⟨fault, rfl, rfl⟩
  | ok widths =>
    right
    have huntags : Formatter.Untags ⟨bare, total, some measured, widths⟩
        ⟨bordered, total, some measured, widths⟩
        (style.border.decorations spec.decorations.shown) :=
      ⟨hbareColumns, rfl, rfl, hdraws, hdrawsBare⟩
    obtain ⟨lines, lines', plains, hlines, hlines', hshown, hshown'⟩ :=
      lines_alike huntags hcolumns hborder (fun _ => hheaders) hstyle hrecords hfooter
    have hbreak : ShowsWithout '[' ['\n'] ['\n'] := .of_bare (by decide) (by decide)
    have htext := hbreak.joined (Or.inl rfl) (hshown.imp fun _ _ hdraws => hdraws.shows)
    have htext' := hbreak.joined (Or.inl rfl) (hshown'.imp fun _ _ hdraws => hdraws.shows)
    exact ⟨_, _, _, congrArg (Except.map Formatter.joinLines) hlines,
      congrArg (Except.map Formatter.joinLines) hlines', htext.strip_eq, htext'.strip_eq⟩

/-- A positional row for a name and a note. -/
def noteRow (name note : Text) : Value :=
  .tuple [.text name, .text note]

/-- A name and a note that can be drawn make a marked row. -/
theorem isMarkedRow_noteRow (namePlain notePlain : Text) {name note : Text}
    (hname : Draws name namePlain) (hnote : ShowsWithout '[' note notePlain)
    (hwrappable : notePlain.IsWrappable) :
    Spec.notes.IsMarkedRow (noteRow name note) := by
  refine ⟨[name, note], Or.inr rfl, ?_⟩
  rintro entry hentry text htext
  obtain rfl | rfl : entry = (Column.names, 0) ∨ entry = (Column.notes, 1) := by
    simpa [Spec.notes, List.zipIdx_cons] using hentry
  · obtain rfl : name = text := Option.some.inj htext
    exact ⟨namePlain, hname.shows, hname.ordinary⟩
  · obtain rfl : note = text := Option.some.inj htext
    exact ⟨notePlain, hnote, hwrappable⟩

/-- A table of names and notes with tags in every place that may have some. -/
def taggedStyle : TableStyle where
  headerStyle := .text ['i']
  footer := some (noteRow (Markup.style ['A', 'l', 'l'] ['b']) ['2'])
  borderTag := .text ['d']

/-- A name that is cut inside of its tags, beside a note that is wrapped between tags. -/
def taggedRecords : List Value :=
  [noteRow (Markup.style ['A', 'u', 'g', 'u', 's', 't', 'a'] ['b'])
    (Markup.style ['f', 'i', 'r', 's', 't'] ['i'] ++ [' '] ++ Markup.style ['o', 'n', 'e'] ['b'])]

/-- A table of tagged notes, with a styled footer and styled strokes, shows the same without its
tags. -/
theorem render_untagged_taggedRecords :
    (∀ column ∈ Spec.notes.columns, column.overflow.IsOrdinary) ∧
      (∀ column ∈ Spec.notes.columns, column.HasHeader) ∧ Spec.notes.decorations.IsOrdinary ∧
      Formatter.IsStyleName taggedStyle.headerStyle ∧ Formatter.IsStyleName taggedStyle.borderTag ∧
      (∀ record ∈ taggedRecords, Spec.notes.IsMarkedRow record) ∧
      (∀ record ∈ taggedStyle.footer, Spec.notes.IsMarkedRow record) ∧
      ∃ table untagged text text' plain, make Spec.notes 18 taggedStyle = .ok table ∧
        make Spec.notes.unstyled 18 taggedStyle.untagged = .ok untagged ∧
        (table.render (.empty 128) taggedRecords).1 = .ok text ∧
        (untagged.render (.empty 128) (taggedRecords.map Value.stripRow)).1 = .ok text' ∧
        strip text = .ok plain ∧ strip text' = .ok plain := by
  have hstyle : Formatter.IsStyleName taggedStyle.headerStyle := Or.inr ⟨['i'], rfl, by decide⟩
  have hborder : Formatter.IsStyleName taggedStyle.borderTag := Or.inr ⟨['d'], rfl, by decide⟩
  have hrecords : ∀ record ∈ taggedRecords, Spec.notes.IsMarkedRow record := by
    intro record hrecord
    obtain rfl := List.mem_singleton.mp hrecord
    exact isMarkedRow_noteRow ['A', 'u', 'g', 'u', 's', 't', 'a']
      ['f', 'i', 'r', 's', 't', ' ', 'o', 'n', 'e'] (by decide +kernel) (by decide +kernel)
      (by decide +kernel)
  have hfooter : ∀ record ∈ taggedStyle.footer, Spec.notes.IsMarkedRow record := by
    intro record hrecord
    obtain rfl := Option.some.inj hrecord
    exact isMarkedRow_noteRow ['A', 'l', 'l'] ['2'] (by decide +kernel) (by decide +kernel)
      (by decide +kernel)
  have hcache := WidthCache.coherent_empty (by decide : (0 : Int) ≤ 128)
  obtain ⟨table, untagged, hmake, huntagged, hrender⟩ := render_untagged 18 Spec.isOrdinary_notes
    Spec.hasHeader_notes Spec.isOrdinary_decorations_notes hstyle hborder hrecords hfooter hcache
    (by decide) hcache (by decide)
  have hdrawn : ((make Spec.notes 18 taggedStyle).bind fun table =>
      (table.render (.empty 128) taggedRecords).1).toOption.isSome = true := by
    decide +kernel
  refine ⟨Spec.isOrdinary_notes, Spec.hasHeader_notes, Spec.isOrdinary_decorations_notes, hstyle,
    hborder, hrecords, hfooter, table, untagged, ?_⟩
  rcases hrender with ⟨fault, hfault, _⟩ | ⟨text, text', plain, htext, htext', hplain, hplain'⟩
  · rw [hmake, Except.bind, hfault] at hdrawn
    cases hdrawn
  · exact ⟨text, text', plain, hmake, huntagged, htext, htext', hplain, hplain'⟩

end Table

end TextGrid
