import TextGrid.Proofs.FilledSlots

/-!
# Lines that line up

Rules, headers, rows and footers are drawn over the same slots, so all lines of a table are equally
wide. Where the resolved widths and the overhead fit the total width, every line is its cells and
its decorations in one order, with the same slack between the groups.
-/

namespace TextGrid

namespace Markup

/-- Whether a text shows ordinary text of a width. -/
def Spans (text : Text) (width : Int) : Prop :=
  ∃ plain, Draws text plain ∧ (Text.cells plain : Int) = width

/-- A text that spans some cells takes as many. -/
theorem Spans.displayWidth {text : Text} {width : Int} (h : Spans text width) :
    displayWidth text = .ok width.toNat := by
  obtain ⟨plain, hdraws, rfl⟩ := h
  rw [hdraws.displayWidth, Int.toNat_natCast]

end Markup

namespace Decorations

/-- Decorations of the same cells leave the same slack. -/
theorem SameCells.slackOf_eq {plain other : Decorations} (h : plain.SameCells other) (total : Int)
    (left right : List Nat) :
    Formatter.slackOf total plain left right = Formatter.slackOf total other left right := by
  simp only [Formatter.slackOf, leastCells, h.separator, h.leading, h.trailing]

/-- Decorations of the same cells ask for the same least width. -/
theorem SameCells.leastCells_eq {plain other : Decorations} (h : plain.SameCells other)
    (left right : List Nat) : plain.leastCells left right = other.leastCells left right := by
  simp only [leastCells, h.separator, h.leading, h.trailing]

end Decorations

namespace Formatter

open Markup

/-- Whether the column widths and the overhead fit the total width. -/
def Fits (formatter : Formatter) : Prop :=
  formatter.widths.sum + formatter.spec.overhead ≤ formatter.total

instance (formatter : Formatter) : Decidable formatter.Fits :=
  inferInstanceAs (Decidable (_ ≤ _))

/-- Whether a line is that of some cells at one height, each exactly as wide as its slot, laid out
in the fixed order with the slack of the formatter. -/
structure LaysOut (formatter : Formatter) (decorations : Decorations) (fill : Text)
    (cells : List Cell) (position : Nat) (line : Text) : Prop where
  position_lt : position < height cells
  filled : List.Forall₂ (fun slot cell => cell.width = slot.width ∧
    displayWidth (cell.lineAt position) = .ok slot.width.toNat) formatter.slots cells
  eq_laidOut : line = decorations.laidOut fill formatter.slack
    (groupLines .left (formatter.spec.columns.zip cells) position)
    (groupLines .right (formatter.spec.columns.zip cells) position)

/-- Cells of lines over the slots of a formatter. -/
def lineCells (formatter : Formatter) (plain : Decorations) : Int :=
  plain.lineCells formatter.total (groupWidths .left formatter.slots)
    (groupWidths .right formatter.slots)

/-- Cells that show filled cells of plain text have their widths. -/
theorem widths_of_pictures {slots : List Slot} {cells plains : List Cell}
    (hcells : List.Forall₂ Cell.Pictures cells plains)
    (hfilled : List.Forall₂ Slot.IsFilled slots plains) (position : Nat) :
    List.Forall₂ (fun slot cell => cell.width = slot.width ∧
      displayWidth (cell.lineAt position) = .ok slot.width.toNat) slots cells := by
  induction hfilled generalizing cells with
  | nil =>
    obtain rfl := List.forall₂_nil_right_iff.mp hcells
    exact .nil
  | cons hslot _ ih =>
    obtain ⟨cell, later, hcell, hlater, rfl⟩ := List.forall₂_cons_right_iff.mp hcells
    refine .cons ⟨hcell.width.trans hslot.width, ?_⟩ (ih hlater)
    rw [(lineAt_draws hcell position).displayWidth, hslot.cells_lineAt]

/-- Every line of cells that fill their slots is as wide as the others, and is laid out in the fixed
order where all fits. -/
theorem assemble_aligned {formatter : Formatter} {plain : Decorations}
    (hsuited : formatter.IsSuited) (hcolumns : formatter.spec.columns ≠ [])
    (hspec : formatter.spec.decorations.Draws plain) {decorations linePlain : Decorations}
    {fill fillPlain : Text} {cells plains : List Cell} {lines : List Text}
    (hdecorations : decorations.Draws linePlain) (hsame : linePlain.SameCells plain)
    (hfill : Draws fill fillPlain) (hone : Text.cells fillPlain = 1)
    (hcells : List.Forall₂ Cell.Pictures cells plains)
    (hfilled : List.Forall₂ Slot.IsFilled formatter.slots plains)
    (hassemble : formatter.assemble cells decorations fill = .ok lines) :
    ∀ line ∈ lines, Spans line (formatter.lineCells plain) ∧
      (formatter.Fits → ∃ position, formatter.LaysOut decorations fill cells position line) := by
  intro line hline
  obtain ⟨position, hposition, hjoin⟩ := exists_mem_of_forall₂ (mapM_eq_ok_iff.mp hassemble) hline
  rw [List.mem_range] at hposition
  rw [lift_eq_ok_iff] at hjoin
  have hleft := groupLines_draws formatter.spec.columns hcells .left position
  have hright := groupLines_draws formatter.spec.columns hcells .right position
  have hwidths : ∀ anchor : Anchor,
      (groupLines anchor (formatter.spec.columns.zip plains) position).map Text.cells =
        groupWidths anchor formatter.slots := by
    intro anchor
    rw [← hsuited.map_column_slots]
    exact map_cells_groupLines hfilled anchor position
  constructor
  · obtain ⟨drawn, hdrawn, hdraws⟩ :=
      joinLine_draws hdecorations hfill hleft hright formatter.total
    obtain rfl : drawn = line := Except.ok.inj (hdrawn.symm.trans hjoin)
    refine ⟨_, hdraws, ?_⟩
    rw [Decorations.cells_plainLine _ hone, hwidths, hwidths, lineCells, hsame.lineCells_eq]
  · intro hfits
    have hleast := hsuited.leastCells_eq hspec hcolumns
    have hroom : (linePlain.leastCells
        ((groupLines .left (formatter.spec.columns.zip plains) position).map Text.cells)
        ((groupLines .right (formatter.spec.columns.zip plains) position).map Text.cells) : Int) ≤
          formatter.total := by
      rw [hwidths, hwidths, hsame.leastCells_eq, hleast]
      exact hfits
    have hlaid := joinLine_eq_laidOut fill hdecorations hleft hright hroom
    rw [hwidths, hwidths, hsame.slackOf_eq, hsuited.slackOf_eq hspec hcolumns] at hlaid
    exact ⟨position, hposition, widths_of_pictures hcells hfilled position,
      Except.ok.inj (hjoin.symm.trans hlaid)⟩

/-! ### The kinds of lines -/

section Kinds

variable {formatter : Formatter} {plain : Decorations} (hsuited : formatter.IsSuited)
  (hdraws : formatter.draws = true) (hspec : formatter.spec.decorations.Draws plain)

include hsuited hdraws hspec

/-- Lines of filled cells with the decorations of the spec. -/
theorem assembleRow_aligned {cells plains : List Cell} {lines : List Text}
    (hcells : List.Forall₂ Cell.Pictures cells plains)
    (hfilled : List.Forall₂ Slot.IsFilled formatter.slots plains)
    (hassemble : formatter.assembleRow cells = .ok lines) :
    ∀ line ∈ lines, Spans line (formatter.lineCells plain) ∧
      (formatter.Fits → ∃ position,
        formatter.LaysOut formatter.spec.decorations [' '] cells position line) := by
  have hsome : formatter.spec.columns ≠ [] := by
    simp only [draws, Bool.and_eq_true, Bool.not_eq_true'] at hdraws
    simpa using hdraws.1
  have hone : Text.cells [' '] = 1 := by decide
  exact assemble_aligned hsuited hsome hspec hspec ⟨rfl, rfl, rfl⟩ draws_space hone hcells hfilled
    hassemble

/-- A rule lines up with the rows, if its decorations are as wide as theirs. -/
theorem rule_aligned {decorations : Decorations} (hdecorations : decorations.Draws decorations)
    (hsame : decorations.SameCells plain) {fill line : Text} (hfill : Draws fill fill)
    (hone : Text.cells fill = 1) (hrule : formatter.rule fill decorations = .ok line)
    (hline : line ≠ []) :
    Spans line (formatter.lineCells plain) ∧
      (formatter.Fits →
        formatter.LaysOut decorations fill (formatter.ruleCells fill) 0 line) := by
  have hsome : formatter.spec.columns ≠ [] := by
    simp only [draws, Bool.and_eq_true, Bool.not_eq_true'] at hdraws
    simpa using hdraws.1
  have hcells := ruleCells_pictures formatter hfill
  obtain ⟨lines, hassemble, _⟩ := assemble_draws formatter hdecorations hfill hcells
  have haligned := assemble_aligned hsuited hsome hspec hdecorations hsame hfill hone hcells
    (ruleCells_filled hsuited hone) hassemble
  have hhead : lines.head?.getD [] = line := by
    rw [ruleCells] at hassemble
    simp only [rule, if_pos hdraws, hassemble, ok_bind] at hrule
    exact Except.ok.inj hrule
  have hmem : line ∈ lines := by
    cases lines with
    | nil => exact absurd hhead.symm hline
    | cons first later => simp [← hhead]
  obtain ⟨hspans, hlaid⟩ := haligned line hmem
  refine ⟨hspans, fun hfits => ?_⟩
  obtain ⟨position, hlaysOut⟩ := hlaid hfits
  -- All cells of a rule have one line.
  have hheight : height (formatter.ruleCells fill) ≤ 1 := height_ruleCells_le formatter fill
  have hfirst : position = 0 := by
    have := hlaysOut.position_lt
    omega
  rwa [hfirst] at hlaysOut

end Kinds

end Formatter

end TextGrid
