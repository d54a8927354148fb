import TextGrid.Proofs.BalancedCells
import TextGrid.Proofs.CellBoxes
import TextGrid.Proofs.FilledSlots
import TextGrid.Proofs.RoundTrip

/-!
# Tables that are wide enough

Measuring a table, giving out its widths and drawing its cells each look at the width of the texts.
Main statement: where the total width holds all that the columns want, the three agree. Every column
gets what it wants, and texts without an upper bound on their width are drawn whole.
-/

namespace TextGrid

/-! ### Cells with room -/

namespace Markup

/-- A style takes no cells. -/
theorem displayWidth_styled {text : Text} (h : IsNested text) {tag : Option Text}
    (htag : ∀ name, tag = some name → isTagName name = true) :
    displayWidth (Cell.styled text tag) = displayWidth text := by
  obtain ⟨spans, hparse⟩ := h
  cases tag with
  | none => rfl
  | some name =>
    rw [Cell.styled, style]
    split
    · rfl
    · rw [displayWidth_of_parse (parse_tagged hparse (htag name rfl)),
        displayWidth_of_parse hparse]
      simp [spansWidth, Span.content, sumNat_append, Text.width]

end Markup

/-- Whether content that fits is drawn whole and on one line. -/
def Overflow.KeepsLine : Overflow → Prop
  | truncate _ _ | clip | expand => True
  | wrap _ => False

namespace Cell

open Markup

/-- A text that fits is not cut, and no marker is looked at. -/
theorem truncate_of_le {text : Text} {used : Nat} {width : Int} (hnested : IsNested text)
    (hused : displayWidth text = .ok used) (hfits : used ≤ width) (edge : Edge) :
    (∀ marker, truncate text width edge marker = .ok text) ∧
      ∀ marker, truncateMarked text width edge marker = .ok text := by
  obtain ⟨spans, hparse⟩ := hnested
  rw [displayWidth_of_parse hparse] at hused
  obtain rfl := Except.ok.inj hused
  have hplain (marker : Text) : truncate text width edge marker = .ok text := by
    rw [truncate, hparse, ok_bind, if_pos hfits]
    rfl
  refine ⟨hplain, fun marker => ?_⟩
  unfold truncateMarked
  split
  · rw [hplain]
    rfl
  · rw [hparse, lift_ok, ok_bind, if_pos hfits]
    rfl

/-- A text with room is drawn whole, in its style and filled up to the box. -/
theorem draw_of_le {text : Text} {used : Nat} {column : Column} {width : Int}
    (hnested : IsNested text) (hused : displayWidth text = .ok used) (hfits : used ≤ width)
    (hkeeps : column.overflow.KeepsLine) (hroom : column.isExpand = true ∨ 1 ≤ width)
    (index : Int) :
    draw text column width index = .ok ⟨index, width,
      [column.anchor.fill (styled text (styleName? column text)) (width - used)]⟩ := by
  have hstyled : displayWidth (styled text (styleName? column text)) = displayWidth text :=
    displayWidth_styled hnested fun name hname => isTagName_of_styleName? hname
  rw [hused] at hstyled
  have hpad : pad column.anchor (styled text (styleName? column text)) width =
      .ok (column.anchor.fill (styled text (styleName? column text)) (width - used)) :=
    pad_eq_ok_iff.mpr ⟨used, hstyled, rfl⟩
  unfold draw
  by_cases hexpand : column.isExpand = true
  · have hbox : max width (used : Int) = width := by omega
    simp only [if_pos hexpand, drawWhole, hstyled, ok_bind, hbox, hpad]
    rfl
  · have hwidth : ¬width ≤ 0 := by
      have := hroom.resolve_left hexpand
      omega
    obtain ⟨hcut, hmarked⟩ := truncate_of_le hnested hused hfits .finish
    rw [if_neg hexpand, if_neg hwidth, boxLines]
    cases hoverflow : column.overflow with
    | truncate edge marker =>
      simp only [(truncate_of_le hnested hused hfits edge).2 marker, ok_bind, hpad]
      rfl
    | clip =>
      simp only [hcut, ok_bind, lift_ok, hpad]
      rfl
    | wrap indent =>
      rw [hoverflow] at hkeeps
      exact hkeeps.elim
    | expand => exact absurd (Overflow.isExpand_eq_true_iff.mpr hoverflow) hexpand

end Cell

/-! ### Measures -/

namespace Measured

/-- Whether every text of a record fits the measured widths. -/
def Covers (spec : Spec) (value : Value) (natural : List Int) : Prop :=
  List.Forall₂ (fun entry most => ∃ used, contentWidth value entry.1 entry.2 = .ok used ∧
    (used : Int) ≤ most) spec.columns.zipIdx natural

/-- What fits some widths fits greater ones. -/
theorem forall₂_of_le {α : Type} {R : α → Int → Prop}
    (hmono : ∀ item most most', R item most → most ≤ most' → R item most') {items : List α}
    {widths widths' : List Int} (h : List.Forall₂ R items widths)
    (hle : List.Forall₂ (· ≤ ·) widths widths') : List.Forall₂ R items widths' := by
  induction h generalizing widths' with
  | nil =>
    cases hle
    exact .nil
  | cons hitem _ ih =>
    cases hle with
    | cons hfirst hlater => exact .cons (hmono _ _ _ hitem hfirst) (ih hlater)

/-- The widest widths are as great as those before and as those of the record. -/
theorem widest_spec {α : Type} {R : α → Nat → Prop} {items : List α} {row : List Nat}
    (h : List.Forall₂ R items row) {widths : List Int} (hlength : widths.length = items.length) :
    List.Forall₂ (· ≤ ·) widths (widest widths row) ∧
      List.Forall₂ (fun item most => ∃ used, R item used ∧ (used : Int) ≤ most) items
        (widest widths row) := by
  induction h generalizing widths with
  | nil =>
    obtain rfl := List.eq_nil_of_length_eq_zero hlength
    exact ⟨.nil, .nil⟩
  | @cons item used _ _ hitem _ ih =>
    cases widths with
    | nil => cases hlength
    | cons width widths =>
      obtain ⟨hwidths, hrow⟩ := ih (Nat.succ_inj.mp hlength)
      exact ⟨.cons (Int.le_max_left _ _) hwidths, .cons ⟨used, hitem, Int.le_max_right _ _⟩ hrow⟩

/-- Measuring texts that have widths gives widths that are not below the first ones and cover every
record. -/
theorem exists_measure {spec : Spec} {records : List Value}
    (h : ∀ value ∈ records, ∃ row, record spec value = .ok row) {start : List Int}
    (hstart : start.length = spec.columns.zipIdx.length) :
    ∃ natural, records.foldlM (fun widths value => do return widest widths (← record spec value))
        start = (.ok natural : Except LayoutError (List Int)) ∧
      List.Forall₂ (· ≤ ·) start natural ∧ ∀ value ∈ records, Covers spec value natural := by
  induction records generalizing start with
  | nil => exact ⟨start, rfl, List.forall₂_same.mpr fun width _ => Int.le_refl width, by simp⟩
  | cons value later ih =>
    obtain ⟨⟨row, hrow⟩, hlater⟩ := List.forall_mem_cons.mp h
    obtain ⟨hnext, hcovers⟩ := widest_spec (mapM_eq_ok_iff.mp hrow) hstart
    obtain ⟨natural, hrun, hle, hall⟩ := ih hlater (hnext.length_eq ▸ hstart)
    refine ⟨natural, ?_, ?_, List.forall_mem_cons.mpr ⟨?_, hall⟩⟩
    · rw [List.foldlM_cons, hrow]
      exact hrun
    · refine forall₂_of_le ?_ hnext hle
      intro first most most' hmost hmost'
      exact Int.le_trans hmost hmost'
    · refine forall₂_of_le ?_ hcovers hle
      rintro entry most most' ⟨used, hused, hmost⟩ hmost'
      exact ⟨used, hused, Int.le_trans hmost hmost'⟩

/-- Texts that all have widths can be measured: nothing is below zero, and every record is
covered. -/
theorem exists_ofRecords {spec : Spec} {records : List Value}
    (h : ∀ value ∈ records, ∃ row, record spec value = .ok row) :
    ∃ natural, ofRecords spec records false = .ok natural ∧
      natural.length = spec.columns.length ∧ Measured.Sound (some natural) ∧
      ∀ value ∈ records, Covers spec value natural := by
  have hstart : (spec.columns.map fun _ => (0 : Int)).length = spec.columns.zipIdx.length := by
    simp
  obtain ⟨natural, hrun, hle, hcovers⟩ := exists_measure h hstart
  refine ⟨natural, hrun, by simpa using hle.length_eq.symm, ?_, hcovers⟩
  rintro widths hwidths width hwidth
  obtain rfl := Option.some.inj hwidths
  obtain ⟨zero, hzero, hnonneg⟩ := exists_mem_of_forall₂ hle hwidth
  obtain ⟨_, _, rfl⟩ := List.mem_map.mp hzero
  exact hnonneg

/-- The text of a column is no wider than the column was measured. -/
theorem Covers.le_at? {spec : Spec} {value : Value} {natural : List Int}
    (h : Covers spec value natural) {entry : Column × Nat} (hentry : entry ∈ spec.columns.zipIdx) :
    ∃ used most, contentWidth value entry.1 entry.2 = .ok used ∧ natural[entry.2]? = some most ∧
      (used : Int) ≤ most := by
  have hposition : spec.columns.zipIdx[entry.2]? = some entry := by
    rw [List.getElem?_zipIdx, List.mk_mem_zipIdx_iff_getElem?.mp hentry]
    simp
  obtain ⟨hindex, hfound⟩ := List.getElem?_eq_some_iff.mp hposition
  have hnatural : entry.2 < natural.length := h.length_eq ▸ hindex
  obtain ⟨used, hused, hmost⟩ := h.get hindex hnatural
  have hentryUsed : contentWidth value entry.1 entry.2 = .ok used := hfound ▸ hused
  exact ⟨used, natural[entry.2], hentryUsed, List.getElem?_eq_getElem hnatural, hmost⟩

end Measured

/-! ### Widths with room -/

namespace Widths

open Demand

/-- Where there is room for all that is wanted, all but the shares are as wide as wanted. -/
theorem distribute_of_le {demands : List Demand} {room : Int}
    (h : sumInt (demands.map wanted) ≤ room) :
    List.Forall₂ (fun demand width => demand.isShare = false → width = demand.wanted) demands
      (distribute room demands) := by
  have hgiven : List.Forall₂ (fun demand width => demand.isShare = false → width = demand.wanted)
      demands (demands.map wanted) :=
    List.forall₂_map_right_iff.mpr (List.forall₂_same.mpr fun _ _ _ => rfl)
  have hexcess : sumInt (demands.map wanted) - room ≤ 0 := by omega
  simp only [distribute, giveBack_of_nonpos hexcess]
  split
  · exact hgiven
  · apply place_forall₂ _ hgiven
    intro parts width hshare
    cases hshare

end Widths

namespace Column

/-- Content that is kept whole takes no negative width. -/
theorem contentCells_nonneg (column : Column) {measured : Option Int}
    (h : ∀ width, measured = some width → 0 ≤ width) : 0 ≤ column.contentCells measured := by
  unfold contentCells
  split
  · cases measured with
    | none => exact Int.le_refl 0
    | some width => exact h width rfl
  · exact Int.le_refl 0

/-- A bounded column wants its natural width. -/
theorem wanted_of_bounded {column : Column} (hexpand : column.isExpand = false)
    (h : ∃ least most, column.width = .bounded least most) (measured : Option Int) :
    column.isProportional = false ∧
      column.fixedCells + column.naturalCells measured + column.contentCells measured =
        column.naturalCells measured := by
  obtain ⟨least, most, hwidth⟩ := h
  constructor
  · simp [ColumnLayout.isProportional, hwidth, WidthRule.parts?]
  · simp [fixedCells, contentCells, hexpand, hwidth]

/-- A column without an upper bound wants as much as was measured. -/
theorem le_wanted {column : Column}
    (h : column.isExpand = true ∨ ∃ least, column.width = .bounded least .null) (measured : Int) :
    column.isProportional = false ∧
      measured ≤ column.fixedCells + column.naturalCells (some measured) +
        column.contentCells (some measured) := by
  cases hexpand : column.isExpand with
  | true =>
    refine ⟨column.not_isProportional_of_isExpand hexpand, ?_⟩
    simp [fixedCells, naturalCells, contentCells, hexpand]
  | false =>
    obtain ⟨least, hwidth⟩ := h.resolve_left (by simp [hexpand])
    obtain ⟨hshare, hwanted⟩ := wanted_of_bounded hexpand ⟨least, .null, hwidth⟩ (some measured)
    refine ⟨hshare, ?_⟩
    rw [hwanted]
    simp only [naturalCells, hexpand, hwidth, Bool.false_eq_true, if_false,
      WidthRule.upperCells?_null, Option.getD_some]
    exact Int.le_max_left _ _

end Column

namespace Formatter

open Markup

/-- The cell that a slot has for a record. -/
def Slot.cell (slot : Slot) (record : Value) : Except LayoutError Cell := do
  let text ← Cell.textIn record slot.column slot.index
  Cell.draw text slot.column slot.width slot.index

/-- Whether a slot is as wide as its widest text where there is room: its content is kept whole, or
its width has no upper bound and its content stays on one line. A slot that cuts its content needs a
cell to show it. -/
def Slot.IsOpen (slot : Slot) : Prop :=
  slot.column.isExpand = true ∨
    (∃ least, slot.column.width = .bounded least .null) ∧ slot.column.overflow.KeepsLine ∧
      1 ≤ slot.width

/-- Whether a slot draws the whole text of a record on one line, in its style and filled up to the
slot. -/
def Slot.DrawsWhole (slot : Slot) (record : Value) : Prop :=
  ∃ text used, Cell.textIn record slot.column slot.index = .ok text ∧
    displayWidth text = .ok used ∧ (used : Int) ≤ slot.width ∧
    slot.cell record = .ok ⟨slot.index, slot.width, [slot.column.anchor.fill
      (Cell.styled text (Cell.styleName? slot.column text)) (slot.width - used)]⟩

/-- Whether every column has a slot that draws its cells, every bounded column gets its natural
width, and every open slot draws the texts of some records whole. -/
structure IsAmple (formatter : Formatter) (spec : Spec) (natural : List Int)
    (records : List Value) : Prop where
  slots : formatter.slots.map (fun slot => (slot.column, slot.index)) = spec.columns.zipIdx
  cells : ∀ record, formatter.cells record = formatter.slots.mapM (·.cell record)
  bounded : ∀ slot ∈ formatter.slots, slot.column.isExpand = false →
    (∃ least most, slot.column.width = .bounded least most) →
    slot.width = slot.column.naturalCells natural[slot.index]?
  whole : ∀ slot ∈ formatter.slots, slot.IsOpen → ∀ record ∈ records, slot.DrawsWhole record

section Wide

variable {spec : Spec} {total : Int} {natural : List Int}

/-- A spec resolves at a total width that holds all that its columns want. -/
theorem exists_resolve_of_wide (hlength : natural.length = spec.columns.length)
    (hsound : Measured.Sound (some natural)) (htotal : 1 ≤ total)
    (hwide : spec.overhead + spec.fixedCells + spec.naturalCells (some natural) +
      spec.contentCells (some natural) ≤ total) :
    ∃ widths, Widths.resolve spec total (some natural) = .ok widths ∧
      widths.length = spec.columns.length := by
  have hmeasure : ¬spec.LacksMeasure (some natural) := by
    rintro ⟨_, index, column, hcolumn, _, hnone⟩
    obtain ⟨hindex, _⟩ := List.getElem?_eq_some_iff.mp hcolumn
    have hout : natural.length ≤ index := List.getElem?_eq_none_iff.mp hnone
    omega
  obtain ⟨_, _, hspare⟩ := Demand.sumInt_ofSpec spec (some natural)
  have hdemands : ∀ demand ∈ Demand.ofSpec spec (some natural), demand.Sound :=
    Demand.sound_ofSpec hsound
  have hspares := Demand.sumInt_spare_nonneg hdemands
  have hcontent : 0 ≤ spec.contentCells (some natural) := by
    apply sumInt_nonneg
    intro width hwidth
    obtain ⟨⟨column, index⟩, _, rfl⟩ := List.mem_map.mp hwidth
    exact column.contentCells_nonneg (hsound.at? index)
  obtain ⟨widths, hresolve⟩ :=
    (Widths.exists_resolve_iff htotal).mpr ⟨hmeasure, (by omega : _ ≤ total)⟩
  exact ⟨widths, hresolve, Widths.length_of_resolve htotal hresolve⟩

end Wide

section Bound

variable {formatter : Formatter} {natural : List Int} (htotal : 1 ≤ formatter.total)
  (hmeasured : formatter.measured = some natural)
  (hresolve : Widths.resolve formatter.spec formatter.total formatter.measured =
    .ok formatter.widths)
  (hwide : formatter.spec.overhead + formatter.spec.fixedCells +
    formatter.spec.naturalCells formatter.measured +
    formatter.spec.contentCells formatter.measured ≤ formatter.total)

include htotal hmeasured hresolve hwide

/-- At such a total width every column but the shares is as wide as it wants. -/
theorem width_eq_wanted {slot : Slot} (hslot : slot ∈ formatter.slots)
    (hshare : slot.column.isProportional = false) :
    slot.width = slot.column.fixedCells + slot.column.naturalCells natural[slot.index]? +
      slot.column.contentCells natural[slot.index]? := by
  obtain ⟨⟨⟨column, index⟩, width⟩, hentry, rfl⟩ := List.mem_map.mp hslot
  have hwanted := (Demand.sumInt_ofSpec formatter.spec formatter.measured).1
  have hroom : sumInt ((Demand.ofSpec formatter.spec formatter.measured).map Demand.wanted) ≤
      formatter.total - formatter.spec.overhead := by omega
  have hgiven := Widths.distribute_of_le hroom
  rw [Widths.eq_distribute_of_resolve (by omega) hresolve] at hentry
  rw [Demand.ofSpec, List.forall₂_map_left_iff] at hgiven
  have hwidth := (List.forall₂_iff_zip.mp hgiven).2 hentry
  obtain ⟨hcells, _, _, hisShare⟩ := Demand.ofColumn_cells column (formatter.measured.at? index)
  have hat : formatter.measured.at? index = natural[index]? := by
    rw [hmeasured]
    rfl
  rw [hwidth (hisShare.trans hshare), hcells, hat]

/-- An open slot has room for every text that was measured. -/
theorem drawsWhole_of_isOpen {slot : Slot} {record : Value} (hslot : slot ∈ formatter.slots)
    (hopen : slot.IsOpen) (hcovers : Measured.Covers formatter.spec record natural)
    (hrecord : ∀ entry ∈ formatter.spec.columns.zipIdx,
      ∃ text, Cell.textIn record entry.1 entry.2 = .ok text ∧ IsNested text) :
    slot.DrawsWhole record := by
  have hentry := mem_zipIdx_of_mem_slots hslot
  obtain ⟨used, most, hused, hmost, hle⟩ := hcovers.le_at? hentry
  obtain ⟨text, htext, hnested⟩ := hrecord _ hentry
  simp only [Measured.contentWidth, htext, ok_bind, lift_eq_ok_iff] at hused
  have hunbounded : slot.column.isExpand = true ∨
      ∃ least, slot.column.width = .bounded least .null :=
    hopen.imp_right fun h => h.1
  obtain ⟨hshare, hcells⟩ := Column.le_wanted hunbounded most
  have hwidth := width_eq_wanted htotal hmeasured hresolve hwide hslot hshare
  simp only [hmost] at hwidth
  have hfits : (used : Int) ≤ slot.width := by omega
  refine ⟨text, used, htext, hused, hfits, ?_⟩
  rw [Slot.cell, htext, ok_bind]
  apply Cell.draw_of_le hnested hused hfits
  · rcases hopen with hexpand | ⟨_, hkeeps, _⟩
    · rw [Overflow.isExpand_eq_true_iff.mp hexpand]
      trivial
    · exact hkeeps
  · exact hopen.imp_right fun h => h.2.2

/-- A formatter is ample at such a total width for all records that it was measured on. -/
theorem isAmple_of_wide {records : List Value}
    (hlength : formatter.widths.length = formatter.spec.columns.length)
    (hrecords : ∀ record ∈ records, ∀ entry ∈ formatter.spec.columns.zipIdx,
      ∃ text, Cell.textIn record entry.1 entry.2 = .ok text ∧ IsNested text)
    (hcovers : ∀ record ∈ records, Measured.Covers formatter.spec record natural) :
    formatter.IsAmple formatter.spec natural records where
  slots := map_entry_slots hlength
  cells := fun _ => rfl
  bounded := by
    intro slot hslot hexpand hbounded
    obtain ⟨hshare, hnatural⟩ := Column.wanted_of_bounded hexpand hbounded natural[slot.index]?
    have hwidth := width_eq_wanted htotal hmeasured hresolve hwide hslot hshare
    exact hwidth.trans hnatural
  whole := by
    intro slot hslot hopen record hrecord
    exact drawsWhole_of_isOpen htotal hmeasured hresolve hwide hslot hopen (hcovers record hrecord)
      (hrecords record hrecord)

end Bound

/-- A styled column without an upper bound, content that is kept whole at the right end, a bounded
column and a share. -/
def openSpec : Spec where
  columns :=
    [{ width := .bounded (.int 1) .null, style := some (.named ['b']), sound := rfl },
      { width := .bounded (.int 1) .null, overflow := .expand, anchor := .right, sound := rfl },
      { width := .bounded (.int 2) (.int 3), overflow := .wrap (.int 0), sound := rfl },
      { width := .fraction 3, sound := rfl }]
  decorations := {}
  sound := Decorations.fault?_default
  whole := rfl

/-- Stray brackets, a wide text, a number and texts that are missing. -/
def openRecords : List Value :=
  [.list [.text "[a[b]x[/b]]".toList, .text "日本".toList, .text "abcd".toList, .text ['z']],
    .list [.text [], .int 12]]

end Formatter

end TextGrid
