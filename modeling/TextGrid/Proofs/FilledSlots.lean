import TextGrid.Proofs.LineWidths
import TextGrid.Proofs.WidthBudget

/-!
# Cells that fill their slots

Cut and wrapped cells are filled up to any width. A cell that is kept whole is as wide as its slot
because the table measured all texts of the column before the widths were given out.
-/

namespace TextGrid

namespace Widths

open Demand

/-- Placing shares leaves all other widths as they are. -/
theorem place_forall₂ {R : Demand → Int → Prop} (hshare : ∀ parts width, R (.share parts) width)
    {demands : List Demand} {widths : List Int} (h : List.Forall₂ R demands widths)
    (shares : List Int) : List.Forall₂ R demands (place demands widths shares) := by
  induction h generalizing shares with
  | nil => cases shares <;> exact .nil
  | @cons demand width demands widths hwidth hlater ih =>
    cases demand with
    | share parts =>
      cases shares with
      | nil => exact .cons hwidth (ih [])
      | cons share shares => exact .cons (hshare parts share) (ih shares)
    | content wanted | fixed wanted | flexible least wanted => exact .cons hwidth (ih shares)

/-- Content that is kept whole gets the width that it asks for. -/
theorem distribute_content {demands : List Demand} (h : ∀ demand ∈ demands, demand.Sound)
    (room : Int) :
    List.Forall₂ (fun demand width => ∀ wanted, demand = content wanted → width = wanted) demands
      (distribute room demands) := by
  have hgiven : List.Forall₂
      (fun demand width => ∀ wanted, demand = content wanted → width = wanted) demands
      (giveBack (sumInt (demands.map wanted) - room) demands).1 := by
    refine (giveBack_bounds h _).imp ?_
    rintro demand width hbounds cells rfl
    simp only [wanted, spare] at hbounds
    omega
  simp only [distribute]
  split
  · exact hgiven
  · exact place_forall₂ (fun parts width wanted hshare => by cases hshare) hgiven _

end Widths

namespace Measured

open Markup

/-- The greatest of some widths. -/
def greatest (start : Int) (widths : List Nat) : Int :=
  widths.foldl (fun most (width : Nat) => max most width) start

/-- The greatest of some widths is not below any of them. -/
theorem le_greatest (start : Int) (widths : List Nat) :
    start ≤ greatest start widths ∧ ∀ width ∈ widths, (width : Int) ≤ greatest start widths := by
  induction widths generalizing start with
  | nil => exact ⟨Int.le_refl _, by simp⟩
  | cons width later ih =>
    obtain ⟨hstart, hlater⟩ := ih (max start width)
    have hgreatest : greatest start (width :: later) = greatest (max start width) later := rfl
    rw [hgreatest]
    refine ⟨by omega, List.forall_mem_cons.mpr ⟨by omega, hlater⟩⟩

/-- What a column measures before any record. -/
def startWidth (withHeaders : Bool) (column : Column) : Int :=
  if withHeaders then Text.cells column.shownHeader else 0

/-- A column measures the greatest of the widths of its header and of its texts. -/
theorem plain_eq_map (spec : Spec) (records : List Value) (withHeaders : Bool) :
    plain spec records withHeaders = spec.columns.zipIdx.map fun entry =>
      greatest (startWidth withHeaders entry.1)
        (records.map fun value => Text.cells (Cell.shownIn value entry.1 entry.2)) := by
  have hrun : ∀ start : Column × Nat → Int,
      records.foldl (fun widths value => widest widths (plainRecord spec value))
          (spec.columns.zipIdx.map start) =
        spec.columns.zipIdx.map fun entry => greatest (start entry)
          (records.map fun value => Text.cells (Cell.shownIn value entry.1 entry.2)) := by
    induction records with
    | nil => exact fun start => rfl
    | cons value later ih =>
      intro start
      have hwidest : widest (spec.columns.zipIdx.map start) (plainRecord spec value) =
          spec.columns.zipIdx.map fun entry =>
            max (start entry) (Text.cells (Cell.shownIn value entry.1 entry.2) : Int) := by
        rw [widest, plainRecord, List.zipWith_map, List.zipWith_self]
      rw [List.foldl_cons, hwidest, ih]
      rfl
  have hstart : (if withHeaders then plainHeaders spec else spec.columns.map fun _ => 0) =
      spec.columns.zipIdx.map fun entry => startWidth withHeaders entry.1 := by
    have hfirst : ∀ width : Column → Int,
        spec.columns.zipIdx.map (fun entry => width entry.1) = spec.columns.map width := by
      intro width
      have hcolumns := List.zipIdx_map_fst 0 spec.columns
      rw [← congrArg (List.map width) hcolumns, List.map_map]
      rfl
    rw [hfirst (startWidth withHeaders)]
    cases withHeaders <;> rfl
  rw [plain, hstart, hrun]

/-- A column measures the greatest of the widths of its header and of its texts in the records. -/
theorem plain_at? {spec : Spec} {entry : Column × Nat} (h : entry ∈ spec.columns.zipIdx)
    (records : List Value) (withHeaders : Bool) :
    (plain spec records withHeaders)[entry.2]? = some (greatest (startWidth withHeaders entry.1)
      (records.map fun value => Text.cells (Cell.shownIn value entry.1 entry.2))) := by
  obtain ⟨column, index⟩ := entry
  have hcolumn : spec.columns[index]? = some column := List.mk_mem_zipIdx_iff_getElem?.mp h
  rw [plain_eq_map, List.getElem?_map, List.getElem?_zipIdx, hcolumn]
  simp

/-- Nothing is measured below zero before the records. -/
theorem startWidth_nonneg (withHeaders : Bool) (column : Column) :
    0 ≤ startWidth withHeaders column := by
  cases withHeaders <;> simp [startWidth]

/-- Nothing is measured below zero. -/
theorem sound_plain (spec : Spec) (records : List Value) (withHeaders : Bool) :
    Measured.Sound (some (plain spec records withHeaders)) := by
  rintro widths hwidths width hwidth
  obtain rfl := Option.some.inj hwidths
  rw [plain_eq_map] at hwidth
  obtain ⟨entry, _, rfl⟩ := List.mem_map.mp hwidth
  exact Int.le_trans (startWidth_nonneg withHeaders entry.1) (le_greatest _ _).1

end Measured

namespace Formatter

section Resolved

variable {formatter : Formatter} (hdraws : formatter.draws = true)
  (hmeasured : formatter.measured.Sound)
  (hresolve : Widths.resolve formatter.spec formatter.total formatter.measured =
    .ok formatter.widths)

include hdraws hmeasured hresolve

omit hmeasured in
/-- A table that draws something has the widths given out for its demands. -/
theorem widths_eq : formatter.widths =
    ⟨Widths.distribute (formatter.total - formatter.spec.overhead)
      (Demand.ofSpec formatter.spec formatter.measured), formatter.total⟩ := by
  simp only [draws, Bool.and_eq_true, Bool.not_eq_true', decide_eq_true_eq] at hdraws
  exact Widths.eq_distribute_of_resolve hdraws.2 hresolve

/-- The widths that a table resolves to suit its columns. -/
theorem isSuited_of_resolve : formatter.IsSuited := by
  have hwidths := widths_eq hdraws hresolve
  have hsound : ∀ demand ∈ Demand.ofSpec formatter.spec formatter.measured, demand.Sound :=
    Demand.sound_ofSpec hmeasured
  constructor
  · simp only [draws, Bool.and_eq_true, decide_eq_true_eq] at hdraws
    exact Widths.length_of_resolve hdraws.2 hresolve
  · rw [hwidths]
    exact Widths.distribute_nonneg hsound _

/-- A column that keeps its content whole is as wide as it was measured. -/
theorem width_eq_measured {slot : Slot} (hslot : slot ∈ formatter.slots)
    (hexpand : slot.column.isExpand = true) :
    slot.width = (formatter.measured.at? slot.index).getD 0 := by
  have hsound : ∀ demand ∈ Demand.ofSpec formatter.spec formatter.measured, demand.Sound :=
    Demand.sound_ofSpec hmeasured
  have hcontent := Widths.distribute_content hsound (formatter.total - formatter.spec.overhead)
  obtain ⟨⟨⟨column, index⟩, width⟩, hentry, rfl⟩ := List.mem_map.mp hslot
  rw [widths_eq hdraws hresolve] at hentry
  rw [Demand.ofSpec, List.forall₂_map_left_iff] at hcontent
  have hwanted := (List.forall₂_iff_zip.mp hcontent).2 hentry
  exact hwanted _ (by simp only [Demand.ofColumn]; exact if_pos hexpand)

end Resolved

/-- The cell of a plain text fills its slot, if the slot is wide enough for text that is kept
whole. -/
theorem Slot.isFilled_drawPlain {slot : Slot} {text : Text} (hwidth : 0 ≤ slot.width)
    (hexpand : slot.column.isExpand = true → (Text.cells text : Int) ≤ slot.width) :
    slot.IsFilled (Cell.drawPlain text slot.column slot.width slot.index) := by
  have hcell : (Cell.drawPlain text slot.column slot.width slot.index).width = slot.width := by
    unfold Cell.drawPlain
    by_cases hwhole : slot.column.isExpand = true
    · rw [if_pos hwhole]
      exact Int.max_eq_left (hexpand hwhole)
    · rw [if_neg hwhole]
      split
      · dsimp only
        omega
      · rfl
  exact ⟨hwidth, hcell, fun line hline => hcell ▸ Cell.cells_of_mem_drawPlain hline⟩

section Measured

variable {formatter : Formatter} {records : List Value} {withHeaders : Bool}
  (hdraws : formatter.draws = true)
  (hmeasured : formatter.measured = some (Measured.plain formatter.spec records withHeaders))
  (hresolve : Widths.resolve formatter.spec formatter.total formatter.measured =
    .ok formatter.widths)

include hdraws hmeasured hresolve

/-- The widths that a table of plain texts resolves to suit its columns. -/
theorem isSuited_of_plain : formatter.IsSuited := by
  refine isSuited_of_resolve hdraws ?_ hresolve
  rw [hmeasured]
  exact Measured.sound_plain formatter.spec records withHeaders

/-- A slot for content that is kept whole is as wide as the widest text that was measured. -/
theorem greatest_eq_width {slot : Slot} (hslot : slot ∈ formatter.slots)
    (hexpand : slot.column.isExpand = true) :
    Measured.greatest (Measured.startWidth withHeaders slot.column) (records.map fun value =>
      Text.cells (Cell.shownIn value slot.column slot.index)) = slot.width := by
  have hsound : formatter.measured.Sound := by
    rw [hmeasured]
    exact Measured.sound_plain formatter.spec records withHeaders
  have hentry := Measured.plain_at? (mem_zipIdx_of_mem_slots hslot) records withHeaders
  rw [width_eq_measured hdraws hsound hresolve hslot hexpand, hmeasured]
  simp [Measured.at?, hentry]

/-- The cells of a record that was measured fill their slots. -/
theorem plainCells_filled {record : Value} (hrecord : record ∈ records) :
    List.Forall₂ Slot.IsFilled formatter.slots (formatter.plainCells record) := by
  have hsuited := isSuited_of_plain hdraws hmeasured hresolve
  rw [plainCells, List.forall₂_map_right_iff]
  refine List.forall₂_same.mpr fun slot hslot => ?_
  refine Slot.isFilled_drawPlain (hsuited.width_nonneg slot hslot) fun hexpand => ?_
  have hgreatest := greatest_eq_width hdraws hmeasured hresolve hslot hexpand
  rw [← hgreatest]
  exact (Measured.le_greatest _ _).2 _ (List.mem_map_of_mem hrecord)

/-- The cells of headers that were measured fill their slots. -/
theorem plainHeaders_filled (hheaders : withHeaders = true) :
    List.Forall₂ Slot.IsFilled formatter.slots formatter.plainHeaders := by
  have hsuited := isSuited_of_plain hdraws hmeasured hresolve
  rw [plainHeaders, List.forall₂_map_right_iff]
  refine List.forall₂_same.mpr fun slot hslot => ?_
  refine Slot.isFilled_drawPlain (hsuited.width_nonneg slot hslot) fun hexpand => ?_
  have hgreatest := greatest_eq_width hdraws hmeasured hresolve hslot hexpand
  have hstart := (Measured.le_greatest (Measured.startWidth withHeaders slot.column)
    (records.map fun value => Text.cells (Cell.shownIn value slot.column slot.index))).1
  rw [hgreatest] at hstart
  simpa [Measured.startWidth, hheaders] using hstart

end Measured

/-- The cells of a rule fill their slots. -/
theorem ruleCells_filled {formatter : Formatter} (h : formatter.IsSuited) {fill : Text}
    (hfill : Text.cells fill = 1) :
    List.Forall₂ Slot.IsFilled formatter.slots (formatter.ruleCells fill) := by
  rw [ruleCells, List.forall₂_map_right_iff]
  refine List.forall₂_same.mpr fun slot hslot => ?_
  have hwidth := h.width_nonneg slot hslot
  refine ⟨hwidth, rfl, fun line hline => ?_⟩
  obtain rfl := List.mem_singleton.mp hline
  rw [Text.cells_repeated hfill]
  omega

end Formatter

end TextGrid
