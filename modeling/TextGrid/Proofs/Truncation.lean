import TextGrid.Cell
import TextGrid.Proofs.Fitting
import TextGrid.Proofs.Results

/-!
# Truncated and padded text

A cell's content is cut to the width of its box or filled up to it. Both follow the plain text that
the content shows: the markup of the content and of the marker has no part in where the cut is or
how many spaces are added.
-/

namespace TextGrid

namespace Text

/-- A text cut to `width` cells at an edge, with the marker put there. A text that fits stays as it
is, and a marker wider than the box is left out. -/
def truncated (text : Text) (width : Int) (edge : Edge) (marker : Text) : Text :=
  if cells text ≤ width then text
  else
    let marker := if width < cells marker then [] else marker
    let keep : Int := max (width - cells marker) 0
    match edge with
    | .start => marker ++ fittingEnd keep text
    | .middle =>
      let head := fitting false ((keep + 1) / 2) text
      head ++ marker ++ fittingEnd (keep - cells head) text
    | .finish => fitting false keep text ++ marker

/-- A text filled to `width` cells with spaces on the side away from the anchor. -/
def padded (anchor : Anchor) (text : Text) (width : Int) : Text :=
  match anchor with
  | .left => text ++ spaces (width - cells text)
  | .right => spaces (width - cells text) ++ text

/-- A truncated text takes no more cells than the width. -/
theorem cells_truncated_le {width : Int} (hwidth : 0 ≤ width) (text : Text) (edge : Edge)
    (marker : Text) : (cells (truncated text width edge marker) : Int) ≤ width := by
  unfold truncated
  split
  · assumption
  · dsimp only
    generalize hshort : (if width < cells marker then [] else marker) = short
    have hmarker : (cells short : Int) ≤ width := by
      rw [← hshort]
      split
      · simpa using hwidth
      · omega
    generalize hkeep : max (width - cells short) 0 = keep
    have hkeepNonneg : 0 ≤ keep := by omega
    have hend := cells_fittingEnd_le hkeepNonneg text
    have hstart := cells_fitting_le hkeepNonneg text
    cases edge with
    | start => simp only [cells_append]; omega
    | finish => simp only [cells_append]; omega
    | middle =>
      have hhalf : 0 ≤ (keep + 1) / 2 := by omega
      have hhead := cells_fitting_le hhalf text
      generalize fitting false ((keep + 1) / 2) text = head at hhead
      have hrest : 0 ≤ keep - cells head := by omega
      have htail := cells_fittingEnd_le hrest text
      simp only [cells_append]
      omega

/-- Ordinary text stays ordinary when it is truncated. -/
theorem IsOrdinary.truncated {text marker : Text} (h : IsOrdinary text)
    (hmarker : IsOrdinary marker) (width : Int) (edge : Edge) :
    IsOrdinary (truncated text width edge marker) := by
  unfold Text.truncated
  split
  · exact h
  · have hshort : IsOrdinary (if width < cells marker then [] else marker) := by
      split
      · exact isOrdinary_nil
      · exact hmarker
    cases edge with
    | start => exact isOrdinary_append.mpr ⟨hshort, h.fittingEnd _⟩
    | finish => exact isOrdinary_append.mpr ⟨h.fitting _ _, hshort⟩
    | middle =>
      exact isOrdinary_append.mpr ⟨isOrdinary_append.mpr ⟨h.fitting _ _, hshort⟩, h.fittingEnd _⟩

/-- Padding brings a text that fits to exactly the width asked for. -/
theorem cells_padded (anchor : Anchor) (text : Text) (width : Int) :
    (cells (padded anchor text width) : Int) = max width (cells text) := by
  cases anchor with
  | left => simp only [padded, cells_append, cells_spaces]; omega
  | right => simp only [padded, cells_append, cells_spaces]; omega

end Text

namespace Markup

section Pad

variable {content : Text} {used : Nat} (h : displayWidth content = .ok used) (width : Int)

include h

/-- A content falls short of a width by what it does not use of it. -/
theorem shortfall_eq : shortfall content width = .ok (width - used).toNat := by
  rw [shortfall, h]
  rfl

/-- Padding on the right puts the missing spaces behind. -/
theorem padRight_eq : padRight content width = .ok (content ++ Text.spaces (width - used)) := by
  have hspaces : Text.spaces ((width - used).toNat : Int) = Text.spaces (width - used) := by
    rw [Text.spaces, Text.spaces, Int.toNat_natCast]
  rw [padRight, shortfall_eq h, ← hspaces]
  rfl

/-- Padding on the left puts the missing spaces in front. -/
theorem padLeft_eq : padLeft content width = .ok (Text.spaces (width - used) ++ content) := by
  have hspaces : Text.spaces ((width - used).toNat : Int) = Text.spaces (width - used) := by
    rw [Text.spaces, Text.spaces, Int.toNat_natCast]
  rw [padLeft, shortfall_eq h, ← hspaces]
  rfl

end Pad

end Markup

namespace Cell

open Markup

/-- A padded text draws its plain text padded. -/
theorem pad_draws {content plain : Text} (h : Draws content plain) (anchor : Anchor)
    (width : Int) :
    ∃ filled, pad anchor content width = .ok filled ∧
      Draws filled (Text.padded anchor plain width) := by
  have hspaces := Draws.spaces (width - Text.cells plain)
  cases anchor with
  | left => exact ⟨_, padRight_eq h.displayWidth width, h.append hspaces⟩
  | right => exact ⟨_, padLeft_eq h.displayWidth width, hspaces.append h⟩

/-- Truncating a text shows its plain text truncated. -/
theorem truncate_draws {text plain marker markerPlain : Text} (h : Draws text plain)
    (hmarker : Draws marker markerPlain) (width : Int) (edge : Edge) :
    ∃ short, truncate text width edge marker = .ok short ∧
      Draws short (Text.truncated plain width edge markerPlain) := by
  have hordinary := h.ordinary
  obtain ⟨spans, hparse, hlegible, _, rfl⟩ := h.shows.exists_parse
  have hwidth := spansWidth_eq_cells hordinary.isCalm
  have hmarkerWidth := hmarker.displayWidth
  suffices hshows : ∃ short, truncate text width edge marker = .ok short ∧
      ShowsWithout '[' short (Text.truncated (plainText spans) width edge markerPlain) by
    obtain ⟨short, htruncate, hshort⟩ := hshows
    exact ⟨short, htruncate, hshort, hordinary.truncated hmarker.ordinary width edge⟩
  by_cases hfits : (Text.cells (plainText spans) : Int) ≤ width
  · refine ⟨text, ?_, ?_⟩
    · rw [truncate, hparse, ok_bind, hwidth, if_pos hfits]
      rfl
    · rw [Text.truncated, if_pos hfits]
      exact h.shows
  · rw [truncate, hparse, ok_bind, hwidth, if_neg hfits, hmarkerWidth, ok_bind, Text.truncated,
      if_neg hfits]
    have hpair : (if (Text.cells markerPlain : Int) > width then ([], 0)
        else (marker, Text.cells markerPlain)) =
          (if width < Text.cells markerPlain then [] else marker,
            Text.cells (if width < Text.cells markerPlain then [] else markerPlain)) := by
      split <;> rfl
    have hshort : ShowsWithout '[' (if width < Text.cells markerPlain then [] else marker)
        (if width < Text.cells markerPlain then [] else markerPlain) := by
      split
      · exact .nil
      · exact hmarker.shows
    simp only [hpair]
    generalize (if width < Text.cells markerPlain then [] else marker) = short at hshort ⊢
    generalize (if width < Text.cells markerPlain then [] else markerPlain) = shortPlain at hshort ⊢
    generalize max (width - Text.cells shortPlain) 0 = keep
    cases edge with
    | start =>
      have htail := takeSuffix_shows hlegible hordinary keep
      exact ⟨_, rfl, .append (Or.inl rfl) hshort htail⟩
    | finish =>
      have hhead := (takePrefix_shows hlegible hordinary keep).1
      exact ⟨_, rfl, .append (Or.inl rfl) hhead hshort⟩
    | middle =>
      obtain ⟨hhead, hused⟩ := takePrefix_shows hlegible hordinary ((keep + 1) / 2)
      have htail := takeSuffix_shows hlegible hordinary
        (keep - (takePrefix spans ((keep + 1) / 2)).used)
      rw [← hused]
      exact ⟨_, rfl, .append (Or.inl rfl) (.append (Or.inl rfl) hhead hshort) htail⟩

end Cell

end TextGrid
