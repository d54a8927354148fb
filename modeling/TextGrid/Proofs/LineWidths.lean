import TextGrid.Proofs.PlainTables

/-!
# Widths of lines

The width of a line depends on the widths of its decorations and cells alone, so lines over the same
column widths are equally wide. Where the cells and decorations fit, a line is made of them and of
one piece of slack between the groups, in a fixed order.
-/

namespace TextGrid

namespace Text

/-- Cells of texts of these widths with separators between neighbours. -/
def joinedCells (separator : Nat) (widths : List Nat) : Nat :=
  sumNat widths + separator * (widths.length - 1)

/-- Joined texts take the cells of the texts and of the separators between them. -/
theorem cells_joined (separator : Text) (texts : List Text) :
    cells (joined separator texts) = joinedCells (cells separator) (texts.map cells) := by
  induction texts with
  | nil => simp [joined, joinedCells]
  | cons first later ih =>
    cases later with
    | nil => simp [joined, joinedCells]
    | cons next others =>
      have hjoined : joined separator (first :: next :: others) =
          first ++ separator ++ joined separator (next :: others) := by
        simp [joined, List.intercalate_cons_cons]
      rw [hjoined, cells_append, cells_append, ih]
      simp only [joinedCells, List.map_cons, sumNat_cons, List.length_cons, Nat.add_sub_cancel,
        Nat.mul_succ]
      omega

/-- Two groups with a separator between them are as wide as all their texts in a row. -/
theorem joinedCells_append (separator : Nat) {left right : List Nat} (hleft : left ≠ [])
    (hright : right ≠ []) :
    joinedCells separator (left ++ right) =
      joinedCells separator left + separator + joinedCells separator right := by
  obtain ⟨first, left, rfl⟩ := List.exists_cons_of_ne_nil hleft
  obtain ⟨next, right, rfl⟩ := List.exists_cons_of_ne_nil hright
  have hcount : (first :: left ++ next :: right).length - 1 = left.length + right.length + 1 := by
    simp
    omega
  simp only [joinedCells, hcount, sumNat_append, List.length_cons, Nat.add_sub_cancel, Nat.mul_succ,
    Nat.mul_add]
  omega

/-- A glyph of one cell takes as many cells as it is repeated. -/
theorem cells_repeated {fill : Text} (h : cells fill = 1) (count : Int) :
    cells (repeated fill count) = count.toNat := by
  unfold repeated
  generalize count.toNat = number
  induction number with
  | zero => rfl
  | succ number ih => rw [List.replicate_succ, List.flatten_cons, cells_append, h, ih, Nat.add_comm]

/-- Cells of two groups of texts of these widths in a room of `inner` cells. -/
def groupedCells (inner : Int) (separator : Nat) (left right : List Nat) : Int :=
  if right.isEmpty then joinedCells separator left
  else if left.isEmpty then max inner (joinedCells separator right)
  else max inner (separator + joinedCells separator right)

/-- The width of two groups depends on the widths of their texts alone. -/
theorem cells_grouped {fill : Text} (h : cells fill = 1) (inner : Int) (separator : Text)
    (left right : List Text) :
    (cells (grouped inner separator fill left right) : Int) =
      groupedCells inner (cells separator) (left.map cells) (right.map cells) := by
  unfold grouped groupedCells
  simp only [List.isEmpty_map, ← cells_joined]
  generalize joined separator left = leftText
  generalize joined separator right = rightText
  by_cases hright : right.isEmpty = true
  · rw [if_pos hright, if_pos hright]
  · rw [if_neg hright, if_neg hright]
    by_cases hleft : left.isEmpty = true
    · rw [if_pos hleft, if_pos hleft, cells_append, cells_repeated h]
      omega
    · rw [if_neg hleft, if_neg hleft]
      split
      · simp only [cells_append, cells_repeated h]
        omega
      · have hroom : 0 ≤ max (inner - (cells rightText : Int) - cells separator) 0 := by omega
        have hfits := cells_fitting_le hroom leftText
        have hpadded := cells_padded .left
          (fitting false (max (inner - (cells rightText : Int) - cells separator) 0) leftText)
          (max (inner - (cells rightText : Int) - cells separator) 0)
        simp only [cells_append]
        omega

end Text

namespace Decorations

/-- Whether decorations of plain text are as wide as others. -/
structure SameCells (plain other : Decorations) : Prop where
  separator : Text.cells plain.separator = Text.cells other.separator
  leading : Text.cells plain.leading = Text.cells other.leading
  trailing : Text.cells plain.trailing = Text.cells other.trailing

/-- Cells of a line over texts of these widths. -/
def lineCells (plain : Decorations) (total : Int) (left right : List Nat) : Int :=
  let inner := if right.isEmpty then total
    else total - Text.cells plain.leading - Text.cells plain.trailing
  Text.cells plain.leading +
    Text.groupedCells inner (Text.cells plain.separator) left right + Text.cells plain.trailing

/-- A plain line takes the cells that its texts and decorations ask for. -/
theorem cells_plainLine (plain : Decorations) {fill : Text} (h : Text.cells fill = 1) (total : Int)
    (left right : List Text) :
    (Text.cells (plain.plainLine total fill left right) : Int) =
      plain.lineCells total (left.map Text.cells) (right.map Text.cells) := by
  have hgrouped := Text.cells_grouped h
    (if right.isEmpty then total else total - Text.cells plain.leading - Text.cells plain.trailing)
    plain.separator left right
  simp only [plainLine, lineCells, Text.cells_append, List.isEmpty_map]
  omega

/-- Decorations of the same cells make lines of the same cells. -/
theorem SameCells.lineCells_eq {plain other : Decorations} (h : plain.SameCells other)
    (total : Int) (left right : List Nat) :
    plain.lineCells total left right = other.lineCells total left right := by
  simp only [lineCells, h.separator, h.leading, h.trailing]

/-- Cells that decorations and texts of these widths take without any slack. -/
def leastCells (plain : Decorations) (left right : List Nat) : Nat :=
  Text.cells plain.leading + Text.joinedCells (Text.cells plain.separator) (left ++ right) +
    Text.cells plain.trailing

/-- A line in its fixed order: what leads, the left group, slack drawn with `fill`, the right group,
and what trails, with a separator between any two neighbouring texts. -/
def laidOut (decorations : Decorations) (fill : Text) (slack : Int) (left right : List Text) :
    Text :=
  decorations.leading ++ Text.joined decorations.separator left ++ Text.repeated fill slack ++
    (if left.isEmpty || right.isEmpty then [] else decorations.separator) ++
    Text.joined decorations.separator right ++ decorations.trailing

end Decorations

namespace Formatter

open Markup

/-- The slack of a line: what a right group leaves of the total width. -/
def slackOf (total : Int) (plain : Decorations) (left right : List Nat) : Int :=
  if right.isEmpty then 0 else total - plain.leastCells left right

/-- Groups that fit their room stand at its ends, with slack and a separator between them. -/
theorem joinGroups_of_fits (fill : Text) {separator separatorPlain : Text}
    {left leftPlains right rightPlains : List Text} (hseparator : Draws separator separatorPlain)
    (hleft : List.Forall₂ Draws left leftPlains) (hright : List.Forall₂ Draws right rightPlains)
    (inner : Int) {width : Nat}
    (hwidth : width = Text.joinedCells (Text.cells separatorPlain)
      (leftPlains.map Text.cells ++ rightPlains.map Text.cells))
    (hfits : right ≠ [] → (width : Int) ≤ inner) :
    joinGroups inner separator fill left right =
      .ok (Text.joined separator left ++
        Text.repeated fill (if right.isEmpty then 0 else inner - width) ++
        (if left.isEmpty || right.isEmpty then [] else separator) ++
        Text.joined separator right) := by
  have hleftText := hseparator.joined hleft
  have hrightText := hseparator.joined hright
  have hnone : Text.joined separator [] = [] := rfl
  unfold joinGroups
  simp only [hleftText.displayWidth, hrightText.displayWidth, hseparator.displayWidth, ok_bind,
    isEmpty_of_forall₂ hleft, isEmpty_of_forall₂ hright, Text.cells_joined]
  cases hright with
  | nil =>
    have hnever : Text.repeated fill 0 = [] := rfl
    simp only [List.isEmpty_nil, if_true, Bool.or_true, hnone, hnever, List.append_nil]
    rfl
  | cons hnext hothers =>
    have hroom := hfits (List.cons_ne_nil _ _)
    cases hleft with
    | nil =>
      rw [List.map_nil, List.nil_append] at hwidth
      subst hwidth
      simp only [List.isEmpty_nil, List.isEmpty_cons, Bool.false_eq_true, if_false, if_true,
        Bool.true_or, hnone, List.nil_append, List.append_nil]
      rfl
    | cons hfirst hlater =>
      rw [Text.joinedCells_append _ (by simp) (by simp)] at hwidth
      generalize Text.joinedCells (Text.cells separatorPlain) (List.map Text.cells (_ :: _)) =
        leftCells at hwidth ⊢
      generalize Text.joinedCells (Text.cells separatorPlain) (List.map Text.cells (_ :: _)) =
        rightCells at hwidth ⊢
      have hgap : (Text.cells separatorPlain : Int) ≤ inner - leftCells - rightCells := by omega
      have hslack : inner - leftCells - rightCells - Text.cells separatorPlain = inner - width := by
        omega
      simp only [List.isEmpty_cons, Bool.false_eq_true, if_false, if_pos hgap, hslack,
        Bool.or_false]
      rfl

/-- A line whose parts fit is laid out in the fixed order. -/
theorem joinLine_eq_laidOut (fill : Text) {decorations plain : Decorations}
    {left leftPlains right rightPlains : List Text} (hdecorations : decorations.Draws plain)
    (hleft : List.Forall₂ Draws left leftPlains) (hright : List.Forall₂ Draws right rightPlains)
    {total : Int}
    (hfits : plain.leastCells (leftPlains.map Text.cells) (rightPlains.map Text.cells) ≤ total) :
    joinLine total decorations fill left right =
      .ok (decorations.laidOut fill
        (slackOf total plain (leftPlains.map Text.cells) (rightPlains.map Text.cells)) left
          right) := by
  unfold Decorations.laidOut slackOf
  unfold Decorations.leastCells at hfits ⊢
  simp only [List.isEmpty_map, ← isEmpty_of_forall₂ hright]
  generalize hwidth : Text.joinedCells (Text.cells plain.separator)
    (leftPlains.map Text.cells ++ rightPlains.map Text.cells) = width at hfits ⊢
  generalize hinner : (if right.isEmpty = true then total
    else total - Text.cells plain.leading - Text.cells plain.trailing) = inner
  have hroom : right ≠ [] → (width : Int) ≤ inner := by
    intro hsome
    rw [if_neg (by simpa using hsome)] at hinner
    omega
  have hslack : (if right.isEmpty = true then 0
      else total - (Text.cells plain.leading + width + Text.cells plain.trailing : Nat)) =
        if right.isEmpty = true then 0 else inner - width := by
    split
    · rfl
    · next hsome =>
      rw [if_neg hsome] at hinner
      omega
  have hgroups :=
    joinGroups_of_fits fill hdecorations.separator hleft hright inner hwidth.symm hroom
  rw [joinLine_eq_ok hdecorations.leading.displayWidth hdecorations.trailing.displayWidth
    hinner.symm hgroups, hslack]
  simp only [List.append_assoc]

/-! ### Cells over slots -/

/-- Whether a cell of plain text fills a slot: it is as wide as the slot, and so is each line. -/
structure Slot.IsFilled (slot : Slot) (cell : Cell) : Prop where
  nonneg : 0 ≤ slot.width
  width : cell.width = slot.width
  lines : ∀ line ∈ cell.lines, (Text.cells line : Int) = slot.width

/-- Every line of a cell that fills its slot is as wide as the slot. -/
theorem Slot.IsFilled.cells_lineAt {slot : Slot} {cell : Cell} (h : slot.IsFilled cell)
    (position : Nat) : Text.cells (cell.lineAt position) = slot.width.toNat := by
  unfold Cell.lineAt
  cases hline : cell.lines[position]? with
  | none => simp [Cell.blank, h.width]
  | some line =>
    have hcells := h.lines line (List.mem_of_getElem? hline)
    simp only [Option.getD_some]
    omega

/-- The widths of the columns that keep to an anchor. -/
def groupWidths (anchor : Anchor) (slots : List Slot) : List Nat :=
  (slots.filter (·.column.anchor = anchor)).map (·.width.toNat)

/-- The texts of a group are as wide as its columns. -/
theorem map_cells_groupLines {cells : List Cell} {slots : List Slot}
    (h : List.Forall₂ Slot.IsFilled slots cells) (anchor : Anchor) (position : Nat) :
    (groupLines anchor ((slots.map (·.column)).zip cells) position).map Text.cells =
      groupWidths anchor slots := by
  unfold groupLines groupWidths
  induction h with
  | nil => rfl
  | @cons slot cell slots cells hslot _ ih =>
    simp only [List.map_cons, List.zip_cons_cons, List.filter_cons]
    split
    · simp only [List.map_cons, ih, hslot.cells_lineAt]
    · exact ih

/-- The two groups together have the widths of all columns. -/
theorem groupWidths_left_right {slots : List Slot} (h : ∀ slot ∈ slots, 0 ≤ slot.width) :
    (sumNat (groupWidths .left slots ++ groupWidths .right slots) : Int) =
        sumInt (slots.map (·.width)) ∧
      (groupWidths .left slots ++ groupWidths .right slots).length = slots.length := by
  induction slots with
  | nil => exact ⟨rfl, rfl⟩
  | cons slot later ih =>
    obtain ⟨hslot, hlater⟩ := List.forall_mem_cons.mp h
    obtain ⟨hsum, hlength⟩ := ih hlater
    simp only [groupWidths, sumNat_append, List.length_append] at hsum hlength ⊢
    cases hanchor : slot.column.anchor with
    | left =>
      simp only [List.filter_cons, hanchor, decide_true, if_true, reduceCtorEq, decide_false,
        Bool.false_eq_true, if_false, List.map_cons, sumNat_cons, sumInt_cons, List.length_cons]
      omega
    | right =>
      simp only [List.filter_cons, hanchor, decide_true, if_true, reduceCtorEq, decide_false,
        Bool.false_eq_true, if_false, List.map_cons, sumNat_cons, sumInt_cons, List.length_cons]
      omega

/-- With a width for every column there is a slot for every column, at its position. -/
theorem map_entry_slots {formatter : Formatter}
    (h : formatter.widths.length = formatter.spec.columns.length) :
    formatter.slots.map (fun slot => (slot.column, slot.index)) =
      formatter.spec.columns.zipIdx := by
  have hlength : formatter.spec.columns.zipIdx.length ≤ formatter.widths.widths.length := by
    simp only [Widths.length] at h
    simp [h]
  have hfirst : formatter.slots.map (fun slot => (slot.column, slot.index)) =
      (formatter.spec.columns.zipIdx.zip formatter.widths.widths).map (·.1) := by
    simp only [slots, List.map_map]
    rfl
  rw [hfirst, List.map_fst_zip hlength]

/-- The columns of the slots are those of the spec. -/
theorem map_column_slots {formatter : Formatter}
    (h : formatter.widths.length = formatter.spec.columns.length) :
    formatter.slots.map (·.column) = formatter.spec.columns := by
  have hcolumns := congrArg (List.map (·.1)) (map_entry_slots h)
  simpa [Function.comp_def] using hcolumns

/-- Slots for all columns take the sum of their widths, and the decorations the overhead. -/
theorem leastCells_groupWidths {spec : Spec} {plain : Decorations}
    (hdecorations : spec.decorations.Draws plain) (hcolumns : spec.columns ≠ [])
    {slots : List Slot} (hwidths : ∀ slot ∈ slots, 0 ≤ slot.width)
    (hcount : slots.length = spec.columns.length) :
    (plain.leastCells (groupWidths .left slots) (groupWidths .right slots) : Int) =
      sumInt (slots.map (·.width)) + spec.overhead := by
  obtain ⟨hsum, hlength⟩ := groupWidths_left_right hwidths
  have hsome : spec.columns.isEmpty = false := by simpa using hcolumns
  have hparts := Spec.partWidth_eq hdecorations
  simp only [Decorations.leastCells, Text.joinedCells, hlength, hcount, ← hsum, Spec.overhead,
    hsome, Bool.false_eq_true, if_false, hparts, Decorations.part]
  omega

/-- Whether the widths of a formatter suit its columns: one for each, and none negative. -/
structure IsSuited (formatter : Formatter) : Prop where
  length : formatter.widths.length = formatter.spec.columns.length
  nonneg : ∀ width ∈ formatter.widths.widths, 0 ≤ width

/-- The slack of a formatter's lines: what is left of its total width if a column keeps to the
right. -/
def slack (formatter : Formatter) : Int :=
  if formatter.spec.columns.any (·.anchor = .right) then
    formatter.total - (formatter.widths.sum + formatter.spec.overhead)
  else 0

namespace IsSuited

variable {formatter : Formatter} (h : formatter.IsSuited)

include h

/-- The columns of the slots are those of the spec. -/
theorem map_column_slots : formatter.slots.map (·.column) = formatter.spec.columns :=
  Formatter.map_column_slots h.length

/-- The widths of the slots are those that were resolved. -/
theorem map_width_slots : formatter.slots.map (·.width) = formatter.widths.widths := by
  have hlength : formatter.widths.widths.length ≤ formatter.spec.columns.zipIdx.length := by
    have := h.length
    simp only [Widths.length] at this
    simp [this]
  have hsecond : formatter.slots.map (·.width) =
      (formatter.spec.columns.zipIdx.zip formatter.widths.widths).map (·.2) := by
    simp only [slots, List.map_map]
    rfl
  rw [hsecond, List.map_snd_zip hlength]

/-- No slot has a negative width. -/
theorem width_nonneg : ∀ slot ∈ formatter.slots, 0 ≤ slot.width := fun _ hslot =>
  h.nonneg _ (h.map_width_slots ▸ List.mem_map_of_mem hslot)

/-- Cells and decorations take the widths of the columns and the overhead of the spec. -/
theorem leastCells_eq {plain : Decorations} (hdecorations : formatter.spec.decorations.Draws plain)
    (hcolumns : formatter.spec.columns ≠ []) :
    (plain.leastCells (groupWidths .left formatter.slots)
        (groupWidths .right formatter.slots) : Int) =
      formatter.widths.sum + formatter.spec.overhead := by
  have hcount : formatter.slots.length = formatter.spec.columns.length := by
    rw [← h.map_column_slots, List.length_map]
  rw [leastCells_groupWidths hdecorations hcolumns h.width_nonneg hcount, h.map_width_slots]
  rfl

/-- What is left of the total width is the slack of the formatter. -/
theorem slackOf_eq {plain : Decorations} (hdecorations : formatter.spec.decorations.Draws plain)
    (hcolumns : formatter.spec.columns ≠ []) :
    slackOf formatter.total plain (groupWidths .left formatter.slots)
      (groupWidths .right formatter.slots) = formatter.slack := by
  have hright : (groupWidths .right formatter.slots).isEmpty =
      !formatter.spec.columns.any (·.anchor = .right) := by
    rw [← h.map_column_slots, groupWidths, List.isEmpty_map, List.any_map, Bool.eq_iff_iff]
    simp [List.filter_eq_nil_iff]
  rw [slackOf, slack, hright, h.leastCells_eq hdecorations hcolumns]
  cases formatter.spec.columns.any (·.anchor = .right) <;> rfl

end IsSuited

end Formatter

end TextGrid
