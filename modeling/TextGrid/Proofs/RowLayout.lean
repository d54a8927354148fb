import TextGrid.Proofs.AlignedTables

/-!
# The layout of a row

A formatter draws every line of a row in one of four layouts: the left group alone, the right group
alone, both groups with slack between them, or the right group with what is left of the left one in
front of it. The width of the line follows from the widths of the cells (`rowLines_laidOut`).
-/

namespace TextGrid

/-- A repeated space is spaces. -/
theorem Text.repeated_space (count : Int) : Text.repeated [' '] count = Text.spaces count :=
  List.flatten_replicate_singleton

namespace Markup

/-- Whether a text shows the longest prefix of another one that fits in `room` cells, and is `width`
cells wide. -/
structure KeepsLongest (text : Text) (room : Int) (kept : Text) (width : Nat) : Prop where
  displayWidth : displayWidth kept = .ok width
  fits : (width : Int) ≤ room
  longest : ∃ plain shown, strip text = .ok plain ∧ strip kept = .ok shown ∧ shown <+: plain ∧
    ∀ part, part <+: plain → (Text.width part : Int) ≤ room → part <+: shown

/-- A cut keeps the longest prefix that fits. -/
theorem Draws.cut_keepsLongest {text plain : Text} (h : Draws text plain) {room : Int}
    (hroom : 0 ≤ room) :
    ∃ kept, Markup.cut text room = .ok kept ∧ Draws kept (Text.fitting false room plain) ∧
      KeepsLongest text room kept (Text.cells (Text.fitting false room plain)) := by
  obtain ⟨kept, hcut, hkept⟩ := h.cut room
  rw [Int.max_eq_left hroom] at hkept
  have hprefix := Text.fitting_isPrefix false room plain
  refine ⟨kept, hcut, hkept, hkept.displayWidth, Text.cells_fitting_le hroom plain,
    plain, _, h.shows.strip_eq, hkept.shows.strip_eq, hprefix, ?_⟩
  intro part hpart hfits
  have hcalm : Text.IsCalm part := (h.ordinary.subset hpart.subset).isCalm
  rw [Text.width_eq_cells hcalm] at hfits
  exact Text.isPrefix_fitting_of_le hpart hfits

end Markup

/-- Cells that the end of a line takes: its decorations and a right group of these widths, with a
separator before the group. -/
def Decorations.reservedCells (plain : Decorations) (right : List Nat) : Nat :=
  Text.cells plain.leading + Text.cells plain.separator +
    Text.joinedCells (Text.cells plain.separator) right + Text.cells plain.trailing

namespace Formatter

open Markup

/-! ### Layouts -/

section Layout

variable (formatter : Formatter) (cells : List Cell)

/-- The cells of the columns that keep to an anchor. -/
def groupCells (anchor : Anchor) : List Cell :=
  ((formatter.spec.columns.zip cells).filter (·.1.anchor = anchor)).map (·.2)

/-- The lines of the columns that keep to an anchor, as one text. -/
def groupText (anchor : Anchor) (position : Nat) : Text :=
  Text.joined formatter.spec.decorations.separator
    (groupLines anchor (formatter.spec.columns.zip cells) position)

/-- Cells that a row takes without any slack: those of its cells and of all decorations. -/
def takenWidth : Int :=
  sumInt (cells.map (·.width)) + formatter.spec.overhead

/-- Cells that a row takes without its left group: those of the decorations at its ends, and of the
cells on the right with a separator before each. -/
def rightWidth : Int :=
  formatter.spec.partWidth .leading + formatter.spec.partWidth .trailing +
    sumInt ((formatter.groupCells cells .right).map
      fun cell => cell.width + formatter.spec.partWidth .separator)

/-- The room that the right group leaves for the left one. -/
def leftRoom : Int :=
  max (formatter.total - formatter.rightWidth cells) 0

/-- Whether no column keeps to an anchor. -/
def Lacks (anchor : Anchor) : Prop :=
  ∀ column ∈ formatter.spec.columns, column.anchor ≠ anchor

instance (anchor : Anchor) : Decidable (formatter.Lacks anchor) :=
  List.decidableBAll (fun column : Column => column.anchor ≠ anchor) formatter.spec.columns

/-- Cells of every line of a row. -/
def rowWidth : Int :=
  if formatter.Lacks .right then formatter.takenWidth cells
  else if formatter.Lacks .left then max formatter.total (formatter.takenWidth cells)
  else if formatter.takenWidth cells ≤ formatter.total then formatter.total
  else max formatter.total (formatter.rightWidth cells)

/-- The layouts of a line of a row at one height. The right group is never cut and stands at the end
of the line; the left group is cut where the two overlap. -/
inductive RowLine (position : Nat) : Text → Prop
  /-- Only a left group. -/
  | left (hright : formatter.Lacks .right) :
      RowLine position (formatter.spec.decorations.leading ++
        formatter.groupText cells .left position ++ formatter.spec.decorations.trailing)
  /-- Only a right group, with slack before it. -/
  | right (hleft : formatter.Lacks .left) (hright : ¬ formatter.Lacks .right) :
      RowLine position (formatter.spec.decorations.leading ++
        Text.spaces (formatter.total - formatter.takenWidth cells) ++
        formatter.groupText cells .right position ++ formatter.spec.decorations.trailing)
  /-- Both groups, with slack between them. -/
  | apart (hleft : ¬ formatter.Lacks .left) (hright : ¬ formatter.Lacks .right)
      (hfits : formatter.takenWidth cells ≤ formatter.total) :
      RowLine position (formatter.spec.decorations.leading ++
        formatter.groupText cells .left position ++
        Text.spaces (formatter.total - formatter.takenWidth cells) ++
        formatter.spec.decorations.separator ++
        formatter.groupText cells .right position ++ formatter.spec.decorations.trailing)
  /-- Both groups, the left one cut to the room that the right one leaves. -/
  | overlap (hleft : ¬ formatter.Lacks .left) (hright : ¬ formatter.Lacks .right)
      (hoverlap : formatter.total < formatter.takenWidth cells) {kept : Text} {width : Nat}
      (hcut : Markup.cut (formatter.groupText cells .left position) (formatter.leftRoom cells) =
        .ok kept)
      (hkept : KeepsLongest (formatter.groupText cells .left position) (formatter.leftRoom cells)
        kept width) :
      RowLine position (formatter.spec.decorations.leading ++ kept ++
        Text.spaces (formatter.leftRoom cells - width) ++
        formatter.spec.decorations.separator ++
        formatter.groupText cells .right position ++ formatter.spec.decorations.trailing)

end Layout

end Formatter

namespace Cell

/-- Whether every line of a cell of plain text is as wide as the cell. -/
structure IsFlush (cell : Cell) : Prop where
  nonneg : 0 ≤ cell.width
  lines : ∀ line ∈ cell.lines, (Text.cells line : Int) = cell.width

/-- All lines of a plain cell are as wide as the cell. -/
theorem drawPlain_isFlush (text : Text) (column : Column) (width index : Int) :
    (drawPlain text column width index).IsFlush := by
  refine ⟨?_, fun line hline => cells_of_mem_drawPlain hline⟩
  unfold drawPlain
  split
  · dsimp only
    omega
  · split
    · exact Int.le_refl 0
    · dsimp only
      omega

end Cell

namespace Formatter

open Markup

/-! ### Cells as slots -/

/-- Slots that are as wide as the cells in them. -/
def slotsOf (columns : List Column) (cells : List Cell) : List Slot :=
  List.zipWith (fun column cell => ⟨column, cell.index.toNat, cell.width⟩) columns cells

/-- The columns of cells taken as slots are those of the spec. -/
theorem map_column_slotsOf {columns : List Column} {cells : List Cell}
    (h : cells.length = columns.length) : (slotsOf columns cells).map (·.column) = columns := by
  induction columns generalizing cells with
  | nil => rfl
  | cons column columns ih =>
    cases cells with
    | nil => cases h
    | cons cell cells =>
      rw [List.length_cons, List.length_cons, Nat.succ_inj] at h
      simp only [slotsOf, List.zipWith_cons_cons, List.map_cons] at ih ⊢
      rw [ih h]

/-- The widths of cells taken as slots are those of the cells. -/
theorem map_width_slotsOf {columns : List Column} {cells : List Cell}
    (h : cells.length = columns.length) :
    (slotsOf columns cells).map (·.width) = cells.map (·.width) := by
  induction cells generalizing columns with
  | nil => simp [slotsOf]
  | cons cell cells ih =>
    cases columns with
    | nil => cases h
    | cons column columns =>
      rw [List.length_cons, List.length_cons, Nat.succ_inj] at h
      simp only [slotsOf, List.zipWith_cons_cons, List.map_cons] at ih ⊢
      rw [ih h]

/-- A group of slots with a gap before each takes its cells and the gaps. -/
theorem sumInt_groupCells {formatter : Formatter} {cells : List Cell} (anchor : Anchor) (gap : Nat)
    (hnonneg : ∀ cell ∈ cells, 0 ≤ cell.width) :
    sumInt ((formatter.groupCells cells anchor).map fun cell => cell.width + gap) =
      (sumNat (groupWidths anchor (slotsOf formatter.spec.columns cells)) +
        gap * (groupWidths anchor (slotsOf formatter.spec.columns cells)).length : Nat) := by
  unfold groupCells groupWidths slotsOf
  generalize formatter.spec.columns = columns
  induction columns generalizing cells with
  | nil => rfl
  | cons column columns ih =>
    cases cells with
    | nil => rfl
    | cons cell cells =>
      obtain ⟨hcell, hcells⟩ := List.forall_mem_cons.mp hnonneg
      have hlater := ih hcells
      simp only [List.zip_cons_cons, List.zipWith_cons_cons, List.filter_cons]
      split
      · simp only [List.map_cons, sumInt_cons, sumNat_cons, List.length_cons, Nat.mul_succ]
        omega
      · exact hlater

/-- Cells that show flush cells of plain text fill slots of their own widths. -/
theorem isFilled_slotsOf {columns : List Column} {cells plains : List Cell}
    (hlength : cells.length = columns.length) (hpictures : List.Forall₂ Cell.Pictures cells plains)
    (hflush : ∀ plain ∈ plains, plain.IsFlush) :
    List.Forall₂ Slot.IsFilled (slotsOf columns cells) plains := by
  induction hpictures generalizing columns with
  | nil => simp [slotsOf]
  | @cons cell plain cells plains hcell _ ih =>
    cases columns with
    | nil => cases hlength
    | cons column columns =>
      rw [List.length_cons, List.length_cons, Nat.succ_inj] at hlength
      obtain ⟨hplain, hplains⟩ := List.forall_mem_cons.mp hflush
      have hwidth := hcell.width
      have hnonneg : 0 ≤ cell.width := by
        rw [hwidth]
        exact hplain.nonneg
      have hlines : ∀ line ∈ plain.lines, (Text.cells line : Int) = cell.width := by
        rw [hwidth]
        exact hplain.lines
      exact .cons ⟨hnonneg, hwidth.symm, hlines⟩ (ih hlength hplains)

/-- No cell that shows a plain one has a negative width. -/
theorem width_nonneg_of_pictures {cells plains : List Cell}
    (hpictures : List.Forall₂ Cell.Pictures cells plains)
    (hflush : ∀ plain ∈ plains, plain.IsFlush) : ∀ cell ∈ cells, 0 ≤ cell.width := by
  intro cell hcell
  obtain ⟨plain, hplain, hpicture⟩ := exists_mem_of_forall₂ hpictures.flip hcell
  rw [hpicture.width]
  exact (hflush plain hplain).nonneg

section Measures

variable {formatter : Formatter} {cells : List Cell}
  (hlength : cells.length = formatter.spec.columns.length)

include hlength

/-- A side lacks columns exactly if its group has no widths. -/
theorem lacks_iff (anchor : Anchor) :
    formatter.Lacks anchor ↔ groupWidths anchor (slotsOf formatter.spec.columns cells) = [] := by
  have hcolumns := map_column_slotsOf hlength
  rw [groupWidths, List.map_eq_nil_iff, List.filter_eq_nil_iff]
  generalize slotsOf formatter.spec.columns cells = slots at hcolumns ⊢
  rw [Lacks, ← hcolumns, List.forall_mem_map]
  simp

variable {plain : Decorations} (hspec : formatter.spec.decorations.Draws plain)
  (hnonneg : ∀ cell ∈ cells, 0 ≤ cell.width)

include hspec hnonneg

/-- The cells that a row takes are the least ones of a line over its groups. -/
theorem takenWidth_eq (hcolumns : formatter.spec.columns ≠ []) :
    formatter.takenWidth cells =
      plain.leastCells (groupWidths .left (slotsOf formatter.spec.columns cells))
        (groupWidths .right (slotsOf formatter.spec.columns cells)) := by
  have hslots := map_width_slotsOf hlength
  have hcount : (slotsOf formatter.spec.columns cells).length = formatter.spec.columns.length := by
    simp [slotsOf, hlength]
  have hwidths : ∀ slot ∈ slotsOf formatter.spec.columns cells, 0 ≤ slot.width := by
    intro slot hslot
    have hmem : slot.width ∈ (slotsOf formatter.spec.columns cells).map (·.width) :=
      List.mem_map_of_mem hslot
    rw [hslots] at hmem
    obtain ⟨cell, hcell, hwidth⟩ := List.mem_map.mp hmem
    rw [← hwidth]
    exact hnonneg cell hcell
  rw [leastCells_groupWidths hspec hcolumns hwidths hcount, hslots, takenWidth]

omit hlength in
/-- The cells of the right group are those that it reserves. -/
theorem rightWidth_eq
    (hright : groupWidths .right (slotsOf formatter.spec.columns cells) ≠ []) :
    formatter.rightWidth cells =
      plain.reservedCells (groupWidths .right (slotsOf formatter.spec.columns cells)) := by
  have hparts := Spec.partWidth_eq hspec
  rw [rightWidth, sumInt_groupCells .right _ hnonneg]
  generalize groupWidths .right (slotsOf formatter.spec.columns cells) = right at hright ⊢
  obtain ⟨next, others, rfl⟩ := List.exists_cons_of_ne_nil hright
  simp only [hparts, Decorations.part, Decorations.reservedCells, Text.joinedCells,
    List.length_cons, Nat.add_sub_cancel, Nat.mul_succ]
  omega

/-- A line over cells has the width of the row. -/
theorem lineCells_eq_rowWidth (hcolumns : formatter.spec.columns ≠ []) :
    plain.lineCells formatter.total (groupWidths .left (slotsOf formatter.spec.columns cells))
      (groupWidths .right (slotsOf formatter.spec.columns cells)) = formatter.rowWidth cells := by
  have htaken := takenWidth_eq hlength hspec hnonneg hcolumns
  have hrightWidth := rightWidth_eq hspec hnonneg
  unfold rowWidth Decorations.lineCells Text.groupedCells
  simp only [lacks_iff hlength, List.isEmpty_iff]
  unfold Decorations.leastCells at htaken
  unfold Decorations.reservedCells at hrightWidth
  generalize groupWidths .left (slotsOf formatter.spec.columns cells) = left at *
  generalize groupWidths .right (slotsOf formatter.spec.columns cells) = right at *
  by_cases hright : right = []
  · simp only [if_pos hright]
    rw [htaken, hright, List.append_nil]
    omega
  · simp only [if_neg hright]
    by_cases hleft : left = []
    · simp only [if_pos hleft]
      rw [htaken, hleft, List.nil_append]
      omega
    · simp only [if_neg hleft]
      rw [hrightWidth hright, htaken, Text.joinedCells_append _ hleft hright]
      split <;> omega

end Measures

/-! ### Lines -/

/-- A left group that overlaps the right one is cut to the room before it, and filled up. -/
theorem joinGroups_of_overlap (fill : Text) {separator separatorPlain : Text}
    {left leftPlains right rightPlains : List Text} (hseparator : Draws separator separatorPlain)
    (hleft : List.Forall₂ Draws left leftPlains) (hright : List.Forall₂ Draws right rightPlains)
    (hfirst : left ≠ []) (hnext : right ≠ []) {inner room : Int} {leftWidth rightWidth : Nat}
    (hleftWidth : leftWidth =
      Text.joinedCells (Text.cells separatorPlain) (leftPlains.map Text.cells))
    (hrightWidth : rightWidth =
      Text.joinedCells (Text.cells separatorPlain) (rightPlains.map Text.cells))
    (hoverlap : inner < leftWidth + Text.cells separatorPlain + rightWidth)
    (hroom : room = max (inner - rightWidth - Text.cells separatorPlain) 0) :
    ∃ kept width, Markup.cut (Text.joined separator left) room = .ok kept ∧
      KeepsLongest (Text.joined separator left) room kept width ∧
      joinGroups inner separator fill left right =
        .ok (kept ++ Text.spaces (room - width) ++ separator ++ Text.joined separator right) := by
  have hleftText := hseparator.joined hleft
  have hrightText := hseparator.joined hright
  have hnonneg : 0 ≤ room := by omega
  obtain ⟨kept, hcut, hkept, hlongest⟩ := hleftText.cut_keepsLongest hnonneg
  refine ⟨kept, _, hcut, hlongest, ?_⟩
  have hleftSome : left.isEmpty = false := by simpa using hfirst
  have hrightSome : right.isEmpty = false := by simpa using hnext
  have hgap : ¬ (Text.cells separatorPlain : Int) ≤ inner - leftWidth - rightWidth := by omega
  unfold joinGroups
  simp only [hleftSome, hrightSome, Bool.false_eq_true, if_false, hleftText.displayWidth,
    hrightText.displayWidth, hseparator.displayWidth, ok_bind, Text.cells_joined, ← hleftWidth,
    ← hrightWidth, if_neg hgap, ← hroom, hcut, padRight_eq hkept.displayWidth]
  rfl

/-- A line whose groups overlap has the right group whole behind the cut left one. -/
theorem joinLine_of_overlap (fill : Text) {decorations plain : Decorations}
    {left leftPlains right rightPlains : List Text} (hdecorations : decorations.Draws plain)
    (hleft : List.Forall₂ Draws left leftPlains) (hright : List.Forall₂ Draws right rightPlains)
    (hfirst : left ≠ []) (hnext : right ≠ []) {total room : Int}
    (hoverlap : total < plain.leastCells (leftPlains.map Text.cells) (rightPlains.map Text.cells))
    (hroom : room = max (total - plain.reservedCells (rightPlains.map Text.cells)) 0) :
    ∃ kept width, Markup.cut (Text.joined decorations.separator left) room = .ok kept ∧
      KeepsLongest (Text.joined decorations.separator left) room kept width ∧
      joinLine total decorations fill left right =
        .ok (decorations.leading ++ kept ++ Text.spaces (room - width) ++ decorations.separator ++
          Text.joined decorations.separator right ++ decorations.trailing) := by
  have hleftSome : leftPlains.map Text.cells ≠ [] := by
    cases hleft with
    | nil => exact absurd rfl hfirst
    | cons _ _ => simp
  have hrightSome : rightPlains.map Text.cells ≠ [] := by
    cases hright with
    | nil => exact absurd rfl hnext
    | cons _ _ => simp
  rw [Decorations.leastCells, Text.joinedCells_append _ hleftSome hrightSome] at hoverlap
  rw [Decorations.reservedCells] at hroom
  have hinner : total - Text.cells plain.leading - Text.cells plain.trailing <
      Text.joinedCells (Text.cells plain.separator) (leftPlains.map Text.cells) +
        Text.cells plain.separator +
        Text.joinedCells (Text.cells plain.separator) (rightPlains.map Text.cells) := by
    omega
  have hinnerRoom : room = max (total - Text.cells plain.leading - Text.cells plain.trailing -
      Text.joinedCells (Text.cells plain.separator) (rightPlains.map Text.cells) -
      Text.cells plain.separator) 0 := by
    omega
  obtain ⟨kept, width, hcut, hkept, hgroups⟩ := joinGroups_of_overlap fill hdecorations.separator
    hleft hright hfirst hnext rfl rfl hinner hinnerRoom
  refine ⟨kept, width, hcut, hkept, ?_⟩
  have hsome : right.isEmpty = false := by simpa using hnext
  rw [joinLine_eq_ok hdecorations.leading.displayWidth hdecorations.trailing.displayWidth
    (by simp [hsome]) hgroups]
  simp only [List.append_assoc]

/-- A right group alone stands at the end of its line. -/
theorem joinLine_nil_left {decorations plain : Decorations} {right rightPlains : List Text}
    (hdecorations : decorations.Draws plain) (hright : List.Forall₂ Draws right rightPlains)
    (hnext : right ≠ []) (total : Int) :
    joinLine total decorations [' '] [] right =
      .ok (decorations.leading ++
        Text.spaces (total - plain.leastCells [] (rightPlains.map Text.cells)) ++
        Text.joined decorations.separator right ++ decorations.trailing) := by
  have hrightText := hdecorations.separator.joined hright
  have hsome : right.isEmpty = false := by simpa using hnext
  have hslack : total - Text.cells plain.leading - Text.cells plain.trailing -
      Text.joinedCells (Text.cells plain.separator) (rightPlains.map Text.cells) =
        total - plain.leastCells [] (rightPlains.map Text.cells) := by
    simp only [Decorations.leastCells, List.nil_append]
    omega
  have hgroups : joinGroups (total - Text.cells plain.leading - Text.cells plain.trailing)
      decorations.separator [' '] [] right =
        .ok (Text.spaces (total - plain.leastCells [] (rightPlains.map Text.cells)) ++
          Text.joined decorations.separator right) := by
    simp only [joinGroups, hsome, Bool.false_eq_true, if_false, hrightText.displayWidth, ok_bind,
      Text.cells_joined, hslack, List.isEmpty_nil, if_true, Text.repeated_space]
    rfl
  rw [joinLine_eq_ok hdecorations.leading.displayWidth hdecorations.trailing.displayWidth
    (by simp [hsome]) hgroups]
  simp only [List.append_assoc]

section Lines

variable {formatter : Formatter} {plain : Decorations} {cells plains : List Cell}
  (hspec : formatter.spec.decorations.Draws plain) (hcolumns : formatter.spec.columns ≠ [])
  (hlength : cells.length = formatter.spec.columns.length)
  (hpictures : List.Forall₂ Cell.Pictures cells plains)
  (hflush : ∀ plain ∈ plains, plain.IsFlush)

include hlength hpictures hflush

/-- The lines of a group take the widths of its cells. -/
theorem map_cells_groupLines_slotsOf (anchor : Anchor) (position : Nat) :
    (groupLines anchor (formatter.spec.columns.zip plains) position).map Text.cells =
      groupWidths anchor (slotsOf formatter.spec.columns cells) := by
  have hfilled := isFilled_slotsOf hlength hpictures hflush
  have hgroup := map_cells_groupLines hfilled anchor position
  rwa [map_column_slotsOf hlength] at hgroup

/-- A side lacks columns exactly if its group has no lines. -/
theorem lacks_iff_groupLines (anchor : Anchor) (position : Nat) :
    formatter.Lacks anchor ↔
      groupLines anchor (formatter.spec.columns.zip cells) position = [] := by
  have hdraws := groupLines_draws formatter.spec.columns hpictures anchor position
  rw [lacks_iff hlength, ← map_cells_groupLines_slotsOf hlength hpictures hflush anchor position,
    List.map_eq_nil_iff, ← List.isEmpty_iff, ← isEmpty_of_forall₂ hdraws, List.isEmpty_iff]

include hspec hcolumns

/-- Every line of a row has its width. -/
theorem joinLine_spans (position : Nat) {line : Text}
    (hjoin : joinLine formatter.total formatter.spec.decorations [' ']
      (groupLines .left (formatter.spec.columns.zip cells) position)
      (groupLines .right (formatter.spec.columns.zip cells) position) = .ok line) :
    Spans line (formatter.rowWidth cells) := by
  have hleft := groupLines_draws formatter.spec.columns hpictures .left position
  have hright := groupLines_draws formatter.spec.columns hpictures .right position
  have hwidths := map_cells_groupLines_slotsOf hlength hpictures hflush
  have hnonneg := width_nonneg_of_pictures hpictures hflush
  have hone : Text.cells [' '] = 1 := by decide
  obtain ⟨drawn, hdrawn, hdraws⟩ :=
    joinLine_draws hspec draws_space hleft hright formatter.total
  obtain rfl : drawn = line := Except.ok.inj (hdrawn.symm.trans hjoin)
  refine ⟨_, hdraws, ?_⟩
  rw [Decorations.cells_plainLine _ hone, hwidths, hwidths,
    lineCells_eq_rowWidth hlength hspec hnonneg hcolumns]

/-- Every line of a row has one of the layouts. -/
theorem joinLine_rowLine (position : Nat) {line : Text}
    (hjoin : joinLine formatter.total formatter.spec.decorations [' ']
      (groupLines .left (formatter.spec.columns.zip cells) position)
      (groupLines .right (formatter.spec.columns.zip cells) position) = .ok line) :
    formatter.RowLine cells position line := by
  have hleft := groupLines_draws formatter.spec.columns hpictures .left position
  have hright := groupLines_draws formatter.spec.columns hpictures .right position
  have hwidths := fun anchor =>
    map_cells_groupLines_slotsOf hlength hpictures hflush anchor position
  have hlacks := fun anchor => lacks_iff_groupLines hlength hpictures hflush anchor position
  have hnonneg := width_nonneg_of_pictures hpictures hflush
  have htaken := takenWidth_eq hlength hspec hnonneg hcolumns
  rw [← hwidths, ← hwidths] at htaken
  by_cases hnoRight : formatter.Lacks .right
  · rw [(hlacks .right).mp hnoRight] at hjoin
    obtain rfl := Except.ok.inj hjoin
    exact .left hnoRight
  · have hnext := mt (hlacks .right).mpr hnoRight
    by_cases hnoLeft : formatter.Lacks .left
    · have hnone := (hlacks .left).mp hnoLeft
      rw [hnone] at hjoin hleft
      rw [List.forall₂_nil_left_iff.mp hleft, List.map_nil] at htaken
      rw [joinLine_nil_left hspec hright hnext, ← htaken] at hjoin
      obtain rfl := Except.ok.inj hjoin
      exact .right hnoLeft hnoRight
    · have hfirst := mt (hlacks .left).mpr hnoLeft
      have hfirstSome := List.isEmpty_eq_false_iff.mpr hfirst
      have hnextSome := List.isEmpty_eq_false_iff.mpr hnext
      by_cases hfits : formatter.takenWidth cells ≤ formatter.total
      · have hroom := hfits
        rw [htaken] at hroom
        have hslack := joinLine_eq_laidOut [' '] hspec hleft hright hroom
        rw [slackOf, List.isEmpty_map, ← isEmpty_of_forall₂ hright, hnextSome,
          if_neg Bool.false_ne_true, ← htaken] at hslack
        obtain rfl := Except.ok.inj (hjoin.symm.trans hslack)
        rw [Decorations.laidOut, Text.repeated_space, hfirstSome, hnextSome, Bool.or_false,
          if_neg Bool.false_ne_true]
        exact .apart hnoLeft hnoRight hfits
      · have hoverlap := Int.not_le.mp hfits
        have hrightWidth := rightWidth_eq hspec hnonneg ((lacks_iff hlength .right).not.mp hnoRight)
        rw [← hwidths] at hrightWidth
        have hless := hoverlap
        rw [htaken] at hless
        obtain ⟨kept, width, hcut, hkept, hline⟩ :=
          joinLine_of_overlap [' '] hspec hleft hright hfirst hnext hless rfl
        rw [← hrightWidth] at hcut hkept hline
        obtain rfl := Except.ok.inj (hjoin.symm.trans hline)
        exact .overlap hnoLeft hnoRight hoverlap hcut hkept

end Lines

/-! ### Rows of a bound formatter -/

/-- A formatter is bound to its spec and total width, with a width for every column. -/
theorem bind_spec {cache : WidthCache} (hcache : cache.Coherent) {spec : Spec} {total : Int}
    {measured : Measured} {formatter : Formatter} (htotal : 1 ≤ total)
    (hbind : (bind cache spec total measured).1 = .ok formatter) :
    formatter.spec = spec ∧ formatter.total = total ∧
      formatter.widths.length = formatter.spec.columns.length := by
  rw [CacheUse.bind_of_coherent hcache] at hbind
  cases hwidths : Widths.resolve spec total measured with
  | error fault =>
    rw [hwidths] at hbind
    cases hbind
  | ok widths =>
    rw [hwidths] at hbind
    obtain rfl := Except.ok.inj hbind
    exact ⟨rfl, rfl, Widths.length_of_resolve (by omega) hwidths⟩

/-- A name that is cut beside a note of several lines. -/
def overlappingRecord : Value :=
  Table.noteRecord (Markup.style ['A', 'u', 'g', 'u', 's', 't', 'a'] ['b'])
    ['f', 'i', 'r', 's', 't', ' ', 'o', 'n', 'e']

end Formatter

end TextGrid
