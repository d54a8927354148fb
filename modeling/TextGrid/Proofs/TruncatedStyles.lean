import TextGrid.Proofs.MaximalSlices
import TextGrid.Proofs.Truncation

/-!
# Styles of truncated text

A text that is too wide keeps its first code points, its last ones or both, each in the styles that
it has there, and the marker takes the place of the others (`Cell.truncate_keeps_ends`). A code
point takes two cells at most, so that no more than one cell is left unused.
-/

namespace TextGrid

/-- No cluster takes more than two cells. -/
theorem Cluster.width_le_two (cluster : Text) : Cluster.width cluster ≤ 2 := by
  unfold Cluster.width
  split
  · omega
  · exact Cluster.charWidth_le_two _
  · split
    · omega
    · split
      · omega
      · split
        · omega
        · exact Cluster.charWidth_le_two _

namespace Markup

/-! ### Cells of styled code points -/

/-- Cells that styled code points take. -/
def styledWidth (chars : List StyledChar) : Nat :=
  Text.width (chars.map (·.1))

/-- The styles aside, styled code points are the text. -/
theorem map_fst_styledFrom (stack : List Text) (spans : List Span) :
    (styledFrom stack spans).map (·.1) = plainText spans := by
  induction spans generalizing stack with
  | nil => rfl
  | cons span later ih =>
    rw [plainText_cons]
    cases span with
    | text content => simp [styledFrom, ih, Span.content, Function.comp_def]
    | opening name => exact ih _
    | closing name => exact ih _

/-- The styled code points of an ordinary text take its cells. -/
theorem styledWidth_styled {spans : List Span} (h : Text.IsOrdinary (plainText spans)) :
    styledWidth (styled spans) = spansWidth spans := by
  rw [styledWidth, styled, map_fst_styledFrom, Text.width_eq_cells h.isCalm,
    spansWidth_eq_cells h.isCalm]

/-- Well-nested spans leave the styles of those behind them as they are. -/
theorem styled_append {left : List Span} (h : openAfter [] left = some []) (right : List Span) :
    styled (left ++ right) = styled left ++ styled right := by
  rw [styled, styledFrom_append, stackAfter_of_openAfter h, styled, styled]

/-! ### Slices of a text that is too wide -/

section Slices

variable {spans : List Span} {width : Int} {slice : Slice}

/-- The styled code points of a slice of ordinary text take the cells that it uses. -/
theorem IsSlice.styledWidth_eq (h : IsSlice slice width)
    (hordinary : Text.IsOrdinary (plainText spans)) (hpart : styled slice.spans ⊆ styled spans) :
    styledWidth (styled slice.spans) = slice.used := by
  have hplain := List.map_subset (·.1) hpart
  rw [styled, styled, map_fst_styledFrom, map_fst_styledFrom] at hplain
  rw [styledWidth_styled (hordinary.subset hplain), h.used]

/-- A slice that leaves something out takes all the cells that there are but one, since the cluster
next to it does not fit. -/
theorem IsSlice.least (h : IsSlice slice width) {dropped kept : List StyledCluster}
    (hwhole : clustersWidth dropped + clustersWidth kept = spansWidth spans)
    (hused : slice.used = clustersWidth kept) (hover : max width 0 < spansWidth spans)
    (hstop : dropped ≠ [] → ∃ next : Text, width < (slice.used + Cluster.width next : Nat)) :
    width - 1 ≤ slice.used := by
  have hfits := h.fits
  have hdropped : dropped ≠ [] := by
    rintro rfl
    have hnone : clustersWidth [] = 0 := rfl
    omega
  obtain ⟨next, hnext⟩ := hstop hdropped
  have htwo := Cluster.width_le_two next
  omega

/-- A longest prefix of what is too wide leaves one cell at most. -/
theorem TakesFirst.least (h : TakesFirst spans width slice)
    (hover : max width 0 < spansWidth spans) : width - 1 ≤ slice.used := by
  obtain ⟨kept, rest, hclusters, _, hused, hstop⟩ := h.longest
  have hwhole := clustersWidth_clustersFrom [] spans
  rw [← clusters, hclusters, clustersWidth_append, Nat.add_comm] at hwhole
  refine h.toIsSlice.least hwhole hused hover fun hrest => ?_
  obtain ⟨next, others, rfl⟩ := List.exists_cons_of_ne_nil hrest
  exact ⟨next.1, hstop next rfl⟩

/-- A longest suffix of what is too wide leaves one cell at most. -/
theorem TakesLast.least (h : TakesLast spans width slice)
    (hover : max width 0 < spansWidth spans) : width - 1 ≤ slice.used := by
  obtain ⟨rest, kept, hclusters, _, hused, hstop⟩ := h.longest
  have hwhole := clustersWidth_clustersFrom [] spans
  rw [← clusters, hclusters, clustersWidth_append] at hwhole
  refine h.toIsSlice.least hwhole hused hover fun hrest => ?_
  exact ⟨(rest.getLast hrest).1, hstop _ (List.getLast?_eq_some_getLast hrest)⟩

/-- Slices of both ends that take fewer cells than the whole do not overlap. -/
theorem TakesFirst.exists_between {firstWidth lastWidth : Int} {first last : Slice}
    (hfirst : TakesFirst spans firstWidth first) (hlast : TakesLast spans lastWidth last)
    (hover : first.used + last.used < spansWidth spans) :
    ∃ dropped, styled spans = styled first.spans ++ dropped ++ styled last.spans := by
  obtain ⟨front, rest, hfront, hfrontStyled, hfrontUsed, _⟩ := hfirst.longest
  obtain ⟨before, back, hback, hbackStyled, hbackUsed, _⟩ := hlast.longest
  have hwhole := clustersWidth_clustersFrom [] spans
  rw [← clusters] at hwhole
  rcases List.append_eq_append_iff.mp (hfront.symm.trans hback) with
    ⟨dropped, rfl, rfl⟩ | ⟨shared, rfl, rfl⟩
  · refine ⟨styledChars dropped, ?_⟩
    rw [styled_eq_styledChars, hback, hfrontStyled, hbackStyled, styledChars_append,
      styledChars_append]
  · rw [hback, clustersWidth_append] at hwhole
    rw [hfrontUsed, hbackUsed, clustersWidth_append] at hover
    omega

end Slices

/-! ### The two ends -/

/-- The spans that truncation at an edge keeps at the beginning and at the end, in `keep` cells. -/
def keptEnds (edge : Edge) (keep : Int) (spans : List Span) : List Span × List Span :=
  match edge with
  | .start => ([], (takeSuffix spans keep).spans)
  | .middle =>
    let head := takePrefix spans ((keep + 1) / 2)
    (head.spans, (takeSuffix spans (keep - head.used)).spans)
  | .finish => ((takePrefix spans keep).spans, [])

/-- Whether truncation at an edge to `keep` cells may keep `front` and `back` of the styled code
points of a text: they stand at its two ends, nothing is kept at the edge that is cut, a cut in the
middle gives the front no more than its half, and all cells are used but one at most. -/
structure KeepsEnds (edge : Edge) (keep : Int) (whole front back : List StyledChar) : Prop where
  apart : ∃ dropped, whole = front ++ dropped ++ back
  start : edge = .start → front = []
  finish : edge = .finish → back = []
  middle : edge = .middle → (styledWidth front : Int) ≤ (keep + 1) / 2
  least : keep - 1 ≤ (styledWidth front + styledWidth back : Nat)
  most : (styledWidth front + styledWidth back : Nat) ≤ keep

section Ends

variable {spans : List Span} (h : Legible '[' spans)

include h

/-- The ends that are kept of legible spans are legible. -/
theorem legible_keptEnds (edge : Edge) (keep : Int) :
    Legible '[' (keptEnds edge keep spans).1 ∧ Legible '[' (keptEnds edge keep spans).2 := by
  have hnone : Legible '[' ([] : List Span) := ⟨by simp, by simp, rfl⟩
  cases edge with
  | start => exact ⟨hnone, legible_takeSuffix h _⟩
  | middle => exact ⟨legible_takePrefix h _, legible_takeSuffix h _⟩
  | finish => exact ⟨legible_takePrefix h _, hnone⟩

/-- The kept ends of an ordinary text that is too wide. -/
theorem keepsEnds_keptEnds (hordinary : Text.IsOrdinary (plainText spans)) (edge : Edge)
    {keep : Int} (hkeep : 0 ≤ keep) (hover : keep < spansWidth spans) :
    KeepsEnds edge keep (styled spans) (styled (keptEnds edge keep spans).1)
      (styled (keptEnds edge keep spans).2) := by
  have hseparable : ∀ content, Span.text content ∈ spans → Cluster.Separable content := by
    intro content hmem
    refine Cluster.separable_of_isOrdinary fun c hc => hordinary c ?_
    exact List.mem_flatMap.mpr ⟨_, hmem, hc⟩
  have hfirst := takesFirst_takePrefix h.nested
  have hlast := takesLast_takeSuffix h.nested hseparable
  have hfirstUsed (width : Int) :=
    (hfirst width).styledWidth_eq hordinary (hfirst width).part.subset
  have hlastUsed (width : Int) :=
    (hlast width).styledWidth_eq hordinary (hlast width).part.subset
  have hnone : styledWidth (styled []) = 0 := rfl
  cases edge with
  | start =>
    obtain ⟨dropped, hwhole⟩ := (hlast keep).part
    have hfits := (hlast keep).fits
    have hleast := (hlast keep).least (by omega)
    exact
      { apart := ⟨dropped, hwhole.symm⟩
        start := fun _ => rfl
        finish := nofun
        middle := nofun
        least := by rw [keptEnds, hnone, hlastUsed]; omega
        most := by rw [keptEnds, hnone, hlastUsed]; omega }
  | middle =>
    have hfrontFits := (hfirst ((keep + 1) / 2)).fits
    have hfrontUsed := hfirstUsed ((keep + 1) / 2)
    have hfront := hfirst ((keep + 1) / 2)
    simp only [keptEnds]
    generalize takePrefix spans ((keep + 1) / 2) = front at *
    have hfits := (hlast (keep - front.used)).fits
    have hleast := (hlast (keep - front.used)).least (by omega)
    exact
      { apart := hfront.exists_between (hlast (keep - front.used)) (by omega)
        start := nofun
        finish := nofun
        middle := fun _ => by rw [hfrontUsed]; omega
        least := by rw [hfrontUsed, hlastUsed]; omega
        most := by rw [hfrontUsed, hlastUsed]; omega }
  | finish =>
    obtain ⟨dropped, hwhole⟩ := (hfirst keep).part
    have hfits := (hfirst keep).fits
    have hleast := (hfirst keep).least (by omega)
    exact
      { apart := ⟨dropped, by rw [← hwhole]; exact (List.append_nil _).symm⟩
        start := nofun
        finish := fun _ => rfl
        middle := nofun
        least := by rw [keptEnds, hnone, hfirstUsed]; omega
        most := by rw [keptEnds, hnone, hfirstUsed]; omega }

end Ends

end Markup

namespace Cell

open Markup

/-- A text that is too wide is cut to its two ends, with the marker between them unless it is wider
than the box. -/
theorem truncate_of_lt {text marker : Text} {spans : List Span} {taken : Nat} {width : Int}
    (hparse : parse text = .ok spans) (hmarker : displayWidth marker = .ok taken)
    (hwidth : 0 ≤ width) (hover : width < spansWidth spans) (edge : Edge) :
    truncate text width edge marker =
      let ends := keptEnds edge (if width < taken then width else width - taken) spans
      .ok (join ends.1 ++ (if width < taken then [] else marker) ++ join ends.2) := by
  have hwide : ¬ (spansWidth spans : Int) ≤ width := by omega
  have hpair : (if (taken : Int) > width then ([], 0) else (marker, taken)) =
      (if width < taken then [] else marker, if width < taken then 0 else taken) := by
    split <;> rfl
  have hkeep : max (width - ((if width < taken then 0 else taken : Nat) : Int)) 0 =
      if width < taken then width else width - taken := by
    split <;> omega
  rw [truncate, hparse, ok_bind, if_neg hwide, hmarker, ok_bind]
  simp only [hpair, hkeep]
  cases edge with
  | start => rfl
  | middle => rfl
  | finish =>
    simp only [keptEnds, join_nil, List.append_nil]
    rfl

/-- Truncation gives back a text that fits. Of a wider one it keeps the two ends, or one of them, in
all the cells that the marker leaves but one at most, with the marker between them; a marker wider
than the box is left out. -/
theorem truncate_keeps_ends {text plain marker markerPlain : Text} (h : Draws text plain)
    (hmarker : Draws marker markerPlain) {width : Int} (hwidth : 0 ≤ width) (edge : Edge) :
    ∃ spans sign used taken, parse text = .ok spans ∧ parse marker = .ok sign ∧
      displayWidth text = .ok used ∧ displayWidth marker = .ok taken ∧
      (used ≤ width → truncate text width edge marker = .ok text) ∧
      (width < used → ∃ short found cells front back,
        truncate text width edge marker = .ok short ∧ parse short = .ok found ∧
        displayWidth short = .ok cells ∧ cells ≤ width ∧
        KeepsEnds edge (if width < taken then width else width - taken) (Markup.styled spans) front
          back ∧
        Markup.styled found =
          front ++ (if width < taken then [] else Markup.styled sign) ++ back) := by
  obtain ⟨spans, hparse, hlegible, _, rfl⟩ := h.shows.exists_parse
  obtain ⟨sign, hsign, hsignLegible, _, rfl⟩ := hmarker.shows.exists_parse
  have hused := displayWidth_of_parse hparse
  have htaken := displayWidth_of_parse hsign
  refine ⟨spans, sign, _, _, hparse, hsign, hused, htaken, fun hfits => ?_, fun hover => ?_⟩
  · rw [truncate, hparse, ok_bind, if_pos hfits]
    rfl
  · generalize hkeep : (if width < spansWidth sign then width else width - spansWidth sign) = keep
    have hkeepBounds : 0 ≤ keep ∧ keep < spansWidth spans := by
      rw [← hkeep]
      split <;> omega
    have hends := keepsEnds_keptEnds hlegible h.ordinary edge hkeepBounds.1 hkeepBounds.2
    obtain ⟨hfront, hback⟩ := legible_keptEnds hlegible edge keep
    have htruncate := truncate_of_lt hparse htaken hwidth hover edge
    rw [hkeep] at htruncate
    -- What stands between the ends: the spans of the marker, or none.
    obtain ⟨between, hbetween, hbetweenJoin, hbetweenStyled⟩ : ∃ between, Legible '[' between ∧
        join between = (if width < spansWidth sign then [] else marker) ∧
        Markup.styled between = if width < spansWidth sign then [] else Markup.styled sign := by
      split
      · exact ⟨[], ⟨by simp, by simp, rfl⟩, rfl, rfl⟩
      · obtain ⟨rfl, _⟩ := parse_eq_ok_iff.mp hsign
        exact ⟨scan marker, hsignLegible, (scan_spec marker).1, rfl⟩
    have hwhole := (hfront.append hbetween).append hback
    obtain ⟨found, hfound, _, hstyled⟩ := hwhole.styled_parse (Or.inl rfl)
    rw [join_append, join_append, hbetweenJoin] at hfound
    rw [styled_append (hfront.append hbetween).nested, styled_append hfront.nested,
      hbetweenStyled] at hstyled
    obtain ⟨short, hshort, hdraws⟩ := truncate_draws h hmarker width edge
    obtain rfl := Except.ok.inj (htruncate.symm.trans hshort)
    exact ⟨_, found, _, _, _, htruncate, hfound, hdraws.displayWidth,
      Text.cells_truncated_le hwidth _ _ _, hends, hstyled⟩

/-- A text with wide glyphs in tags that a cut in the middle takes apart. -/
def gluedNote : Text :=
  "[b]日本[/b]語 x".toList

/-- A marker in tags of its own. -/
def gluedMarker : Text :=
  "[i]…[/i]".toList

/-- A note of wide glyphs keeps both its ends around a marker of one cell. -/
theorem truncate_keeps_ends_gluedNote :
    Draws gluedNote "日本語 x".toList ∧ Draws gluedMarker "…".toList ∧ (0 : Int) ≤ 6 ∧
      ∃ spans sign used taken, parse gluedNote = .ok spans ∧ parse gluedMarker = .ok sign ∧
        displayWidth gluedNote = .ok used ∧ displayWidth gluedMarker = .ok taken ∧
        (used ≤ (6 : Int) → truncate gluedNote 6 .middle gluedMarker = .ok gluedNote) ∧
        ((6 : Int) < used → ∃ short found cells front back,
          truncate gluedNote 6 .middle gluedMarker = .ok short ∧ parse short = .ok found ∧
          displayWidth short = .ok cells ∧ cells ≤ (6 : Int) ∧
          KeepsEnds .middle (if (6 : Int) < taken then 6 else 6 - taken) (Markup.styled spans) front
            back ∧
          Markup.styled found =
            front ++ (if (6 : Int) < taken then [] else Markup.styled sign) ++ back) := by
  have hnote : Draws gluedNote "日本語 x".toList := by decide +kernel
  have hmarker : Draws gluedMarker "…".toList := by decide +kernel
  exact ⟨hnote, hmarker, by omega, truncate_keeps_ends hnote hmarker (by omega) .middle⟩

/-- The wide glyph that no longer fits leaves a cell unused. -/
example : truncate gluedNote 6 .middle gluedMarker = .ok "[b]日[/b][i]…[/i] x".toList := by
  decide +kernel

end Cell

end TextGrid
