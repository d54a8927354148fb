import TextGrid.Proofs.MaximalSlices

/-!
# Repaired slices

A slice of well-nested spans may begin inside some tags and end inside others, and its texts may be
cut short. Rebalancing makes every such slice well nested with matching names, keeps its text and
its cells, and leaves nothing empty in it. Rebalancing once more changes nothing
(`rebalance_repairs`).
-/

namespace TextGrid.Markup

/-! ### Pruning and rebalancing once more -/

/-- Spans that follow pruned ones are pruned as if they followed the whole. -/
theorem foldl_pruneStep_prune (kept spans : List Span) :
    (prune spans).foldl pruneStep kept = spans.foldl pruneStep kept := by
  apply prune_view (List.foldl pruneStep kept ·)
  · intro spans spans' span h
    rw [List.foldl_concat, h, List.foldl_concat]
  · intro spans
    rw [List.foldl_concat, pruneStep]
  · intro spans name
    rw [List.foldl_concat, List.foldl_concat]
    simp [pruneStep]

/-- A pruned list has no empty pairs left to drop. -/
@[simp] theorem prune_prune (spans : List Span) : prune (prune spans) = prune spans := by
  rw [prune, foldl_pruneStep_prune, prune]

/-- Empty pairs may be dropped from a part of a list first. -/
theorem prune_append_prune (left middle right : List Span) :
    prune (left ++ prune middle ++ right) = prune (left ++ middle ++ right) := by
  have hmiddle := foldl_pruneStep_prune (left.foldl pruneStep []) middle
  unfold prune at hmiddle ⊢
  simp only [List.foldl_append, hmiddle]

namespace Unpaired

/-- What pruning drops leaves no tag unpaired. -/
theorem ofSpans_prune (spans : List Span) : ofSpans (prune spans) = ofSpans spans := by
  apply prune_view ofSpans
  · intro spans spans' span h
    rw [ofSpans_concat, h, ofSpans_concat]
  · intro spans
    rw [ofSpans_concat, step]
  · intro spans name
    rw [ofSpans_concat, ofSpans_concat, step, step]

/-- Well-nested spans leave no tag unpaired. -/
theorem ofSpans_of_nested {spans : List Span} (h : openAfter [] spans = some []) :
    ofSpans spans = ⟨[], []⟩ := by
  obtain ⟨_, outer, hbefore, hafter⟩ := openAfter_ofSpans h
  obtain ⟨hclosings, _⟩ := List.append_eq_nil_iff.mp hbefore.symm
  obtain ⟨hopenings, _⟩ := List.append_eq_nil_iff.mp hafter.symm
  rw [List.reverse_eq_nil_iff] at hclosings
  calc
    ofSpans spans = ⟨(ofSpans spans).closings, (ofSpans spans).openings⟩ := rfl
    _ = ⟨[], []⟩ := by rw [hclosings, hopenings]

end Unpaired

/-- Dropping empty pairs first makes no difference to rebalancing. -/
theorem rebalance_prune (spans : List Span) : rebalance (prune spans) = rebalance spans := by
  rw [rebalance, Unpaired.ofSpans_prune, prune_append_prune, rebalance]

/-- Well-nested spans need no further tags. -/
theorem rebalance_of_nested {spans : List Span} (h : openAfter [] spans = some []) :
    rebalance spans = prune spans := by
  simp [rebalance, Unpaired.ofSpans_of_nested h]

/-- A slice that runs through is repaired at once. -/
theorem rebalance_rebalance {before after : List Text} {spans : List Span}
    (h : openAfter before spans = some after) :
    rebalance (rebalance spans) = rebalance spans := by
  have hnested := openAfter_rebalance h
  rw [rebalance_of_nested hnested, rebalance, prune_prune]

/-! ### Slices -/

/-- Whether a span is another one, or a text of which code points are left out at either end. -/
inductive Shortens : Span → Span → Prop
  | whole (span : Span) : Shortens span span
  | text {part content : Text} (h : part <:+: content) : Shortens (.text part) (.text content)

/-- Whether spans stand side by side in a list, but for texts that are cut short. The texts at the
ends may be, and so may the others. -/
def IsPartOf (part spans : List Span) : Prop :=
  ∃ before whole after, spans = before ++ whole ++ after ∧ List.Forall₂ Shortens part whole

/-- Shortened end texts leave the tags as they are. -/
theorem tags_of_shortens {part whole : List Span} (h : List.Forall₂ Shortens part whole) :
    tags part = tags whole := by
  induction h with
  | nil => rfl
  | @cons span span' later later' hspan _ ih =>
    cases hspan with
    | whole =>
      rw [← List.singleton_append, tags_append, ih, ← tags_append]
      rfl
    | text _ => rw [tags_text, tags_text, ih]

/-- A part of a list that runs through runs from the tags open before it to those open behind
it. -/
theorem IsPartOf.exists_openAfter {part spans : List Span} (h : IsPartOf part spans)
    {stack last : List Text} (hrun : openAfter stack spans = some last) :
    ∃ before after, openAfter before part = some after := by
  obtain ⟨front, whole, back, rfl, hpart⟩ := h
  obtain ⟨between, hfront, _⟩ := exists_openAfter_of_append hrun
  obtain ⟨before, _, hwhole⟩ := exists_openAfter_of_append hfront
  rw [← openAfter_congr (tags_of_shortens hpart)] at hwhole
  exact ⟨before, between, hwhole⟩

/-! ### Repairs -/

/-- Neighbouring tags that open and close have the same name in spans that run through. -/
theorem eq_of_openAfter_pair {before after : List Text} {front back : List Span}
    {opened closed : Text}
    (h : openAfter before (front ++ .opening opened :: .closing closed :: back) = some after) :
    opened = closed := by
  obtain ⟨between, _, hrun⟩ := exists_openAfter_of_append h
  by_contra hne
  simp [openAfter, hne] at hrun

/-- Whether spans repair a slice: they are well nested, show the text of the slice in its cells,
have no empty text and no opening tag right before a closing tag, and need no repair themselves. -/
structure Repairs (repaired part : List Span) : Prop where
  nested : WellNested repaired
  plain : plainText repaired = plainText part
  width : spansWidth repaired = spansWidth part
  filled : Span.text [] ∉ repaired
  apart : ∀ front opened closed back,
    repaired ≠ front ++ .opening opened :: .closing closed :: back
  stable : rebalance repaired = repaired

/-- Spans that run from some open tags to others are repaired. -/
theorem repairs_rebalance {before after : List Text} {part : List Span}
    (hrun : openAfter before part = some after) : Repairs (rebalance part) part := by
  have hnested := openAfter_rebalance hrun
  have hpruned : Pruned (rebalance part) := pruned_prune _
  refine
    { nested := wellNested_iff.mpr hnested
      plain := plainText_rebalance part
      width := spansWidth_rebalance part
      filled := hpruned.filled
      apart := ?_
      stable := rebalance_rebalance hrun }
  intro front opened closed back hpair
  rw [hpair] at hnested hpruned
  obtain rfl := eq_of_openAfter_pair hnested
  obtain ⟨_, hchain, _⟩ := List.isChain_append.mp hpruned.pairs
  exact (List.isChain_cons_cons.mp hchain).1 opened rfl rfl

/-- Rebalancing repairs every slice of well-nested spans. -/
theorem rebalance_repairs {part spans : List Span} (hnested : WellNested spans)
    (hpart : IsPartOf part spans) : Repairs (rebalance part) part := by
  obtain ⟨before, after, hrun⟩ := hpart.exists_openAfter (wellNested_iff.mp hnested)
  exact repairs_rebalance hrun

/-- Two pairs of tags inside each other, twice, with a text in each. -/
def twiceNested : List Span :=
  scan "[a]p[b]xy[/b][/a][c][d]zw[/d]q[/c]".toList

/-- From behind the text of the first two pairs to within the text of the others. -/
def betweenTexts : List Span :=
  [.text [], .closing ['b'], .closing ['a'], .opening ['c'], .opening ['d'], .text ['z']]

/-- A slice from text to text within nested tags is repaired. -/
theorem rebalance_repairs_betweenTexts :
    WellNested twiceNested ∧ IsPartOf betweenTexts twiceNested ∧
      Repairs (rebalance betweenTexts) betweenTexts := by
  have hspans : twiceNested = [.opening ['a'], .text ['p'], .opening ['b']] ++
      [.text ['x', 'y'], .closing ['b'], .closing ['a'], .opening ['c'], .opening ['d'],
        .text ['z', 'w']] ++ [.closing ['d'], .text ['q'], .closing ['c']] := by
    decide +kernel
  have hnested : WellNested twiceNested := wellNested_iff.mpr (by decide +kernel)
  have hpart : IsPartOf betweenTexts twiceNested := by
    refine ⟨_, _, _, hspans, ?_⟩
    refine .cons (.text (by simp)) (.cons (.whole _) (.cons (.whole _) (.cons (.whole _)
      (.cons (.whole _) (.cons (.text ?_) .nil)))))
    exact ⟨[], ['w'], rfl⟩
  exact ⟨hnested, hpart, rebalance_repairs hnested hpart⟩

example : rebalance betweenTexts =
    [.opening ['c'], .opening ['d'], .text ['z'], .closing ['d'], .closing ['c']] := by
  decide +kernel

end TextGrid.Markup
