import Mathlib.Data.List.Induction
import TextGrid.Markup.Parse

/-!
# Nesting of tags

Tags are well nested when a run over them with a stack of open names goes through. A slice of
well-nested markup runs from the tags open before it to the tags open after it. Rebalancing makes
such a slice well nested on its own, and leaves its text as it is.
-/

namespace TextGrid

namespace Span

/-- Whether a tag has a name that is read back; a text span has no name. -/
def isNamed : Span → Bool
  | text _ => true
  | opening name | closing name => Markup.isTagName name

/-- A tag has no content. -/
theorem content_of_tag {tag : Span} (h : tag.isText = false) : tag.content = [] := by
  cases tag with
  | text content => simp [isText] at h
  | opening name => rfl
  | closing name => rfl

end Span

namespace Markup

/-! ### Texts and tags of a list -/

/-- No spans have no text. -/
@[simp] theorem plainText_nil : plainText [] = [] := rfl

/-- The content of a first span comes first. -/
@[simp] theorem plainText_cons (span : Span) (spans : List Span) :
    plainText (span :: spans) = span.content ++ plainText spans := by
  simp [plainText]

/-- The text of some spans comes before that of the spans behind them. -/
@[simp] theorem plainText_append (left right : List Span) :
    plainText (left ++ right) = plainText left ++ plainText right := by
  simp [plainText]

/-- The text of lines is made up of the texts of each. -/
theorem plainText_flatten (lines : List (List Span)) :
    plainText lines.flatten = (lines.map plainText).flatten := by
  induction lines with
  | nil => rfl
  | cons line later ih => simp [ih]

/-- No spans are written as nothing. -/
@[simp] theorem join_nil : join [] = [] := rfl

/-- A first span is written first. -/
@[simp] theorem join_cons (span : Span) (spans : List Span) :
    join (span :: spans) = span.print ++ join spans := by
  simp [join]

/-- Some spans are written before the spans behind them. -/
@[simp] theorem join_append (left right : List Span) :
    join (left ++ right) = join left ++ join right := by
  simp [join]

/-- The tags of a span list. -/
def tags (spans : List Span) : List Span :=
  spans.filter (!·.isText)

/-- No spans have no tags. -/
@[simp] theorem tags_nil : tags [] = [] := rfl

/-- The tags of some spans come before those of the spans behind them. -/
@[simp] theorem tags_append (left right : List Span) :
    tags (left ++ right) = tags left ++ tags right := by
  simp [tags]

/-- A text is no tag. -/
@[simp] theorem tags_text (content : Text) (spans : List Span) :
    tags (.text content :: spans) = tags spans := by
  simp [tags, Span.isText]

/-- An opening tag is a tag. -/
@[simp] theorem tags_opening (name : Text) (spans : List Span) :
    tags (.opening name :: spans) = .opening name :: tags spans := by
  simp [tags, Span.isText]

/-- A closing tag is a tag. -/
@[simp] theorem tags_closing (name : Text) (spans : List Span) :
    tags (.closing name :: spans) = .closing name :: tags spans := by
  simp [tags, Span.isText]

/-- Opening tags have no text. -/
@[simp] theorem plainText_map_opening (names : List Text) :
    plainText (names.map .opening) = [] := by
  induction names with
  | nil => rfl
  | cons name later ih => simp [Span.content, ih]

/-- Closing tags have no text. -/
@[simp] theorem plainText_map_closing (names : List Text) :
    plainText (names.map .closing) = [] := by
  induction names with
  | nil => rfl
  | cons name later ih => simp [Span.content, ih]

/-- A list whose tags all stand in another list has names like that one. -/
theorem isNamed_of_tags_subset {spans part : List Span}
    (hnamed : ∀ span ∈ spans, span.isNamed = true) (hpart : tags part ⊆ tags spans) :
    ∀ span ∈ part, span.isNamed = true := by
  intro span hspan
  cases htag : span.isText with
  | true =>
    cases span with
    | text content => rfl
    | opening name => simp [Span.isText] at htag
    | closing name => simp [Span.isText] at htag
  | false =>
    have hmem : span ∈ tags part := List.mem_filter.mpr ⟨hspan, by simp [htag]⟩
    exact hnamed span (List.mem_filter.mp (hpart hmem)).1

/-! ### Runs with a stack -/

/-- The names open after a span list when those of `stack` are open before it, innermost first.
There are none when a closing tag does not match the innermost open one. -/
def openAfter : List Text → List Span → Option (List Text)
  | stack, [] => some stack
  | stack, .text _ :: later => openAfter stack later
  | stack, .opening name :: later => openAfter (name :: stack) later
  | [], .closing _ :: _ => none
  | innermost :: outer, .closing name :: later =>
    if innermost = name then openAfter outer later else none

/-- A run over two lists goes on from what the first one leaves open. -/
theorem openAfter_append (stack : List Text) (left right : List Span) :
    openAfter stack (left ++ right) = (openAfter stack left).bind (openAfter · right) := by
  induction left generalizing stack with
  | nil => rfl
  | cons span later ih =>
    cases span with
    | text content => simp [openAfter, ih]
    | opening name => simp [openAfter, ih]
    | closing name =>
      cases stack with
      | nil => rfl
      | cons innermost outer =>
        by_cases hname : innermost = name
        · simp [openAfter, hname, ih]
        · simp [openAfter, hname]

/-- The two parts of a list that runs through both run through, one from where the other ends. -/
theorem exists_openAfter_of_append {stack after : List Text} {left right : List Span}
    (h : openAfter stack (left ++ right) = some after) :
    ∃ between, openAfter stack left = some between ∧ openAfter between right = some after := by
  rw [openAfter_append] at h
  exact Option.bind_eq_some_iff.mp h

/-- Names further out on the stack stay as they are. -/
theorem openAfter_frame {stack after : List Text} {spans : List Span} (outer : List Text)
    (h : openAfter stack spans = some after) :
    openAfter (stack ++ outer) spans = some (after ++ outer) := by
  induction spans generalizing stack with
  | nil => simp_all [openAfter]
  | cons span later ih =>
    cases span with
    | text content => exact ih h
    | opening name => exact ih h
    | closing name =>
      cases stack with
      | nil => simp [openAfter] at h
      | cons innermost rest =>
        by_cases hname : innermost = name
        · simp only [openAfter, hname, if_true] at h
          simpa [openAfter, hname] using ih h
        · simp [openAfter, hname] at h

/-- Only the tags of a list count. -/
theorem openAfter_tags (stack : List Text) (spans : List Span) :
    openAfter stack (tags spans) = openAfter stack spans := by
  induction spans generalizing stack with
  | nil => rfl
  | cons span later ih =>
    cases span with
    | text content => simp [openAfter, ih]
    | opening name => simp [openAfter, ih]
    | closing name => cases stack <;> simp [openAfter, ih]

/-- Lists with the same tags run alike. -/
theorem openAfter_congr {stack : List Text} {spans spans' : List Span}
    (h : tags spans = tags spans') : openAfter stack spans = openAfter stack spans' := by
  rw [← openAfter_tags stack spans, h, openAfter_tags]

/-- A run over opening tags leaves them open, the last one innermost. -/
theorem openAfter_map_opening (stack names : List Text) :
    openAfter stack (names.map .opening) = some (names.reverse ++ stack) := by
  induction names generalizing stack with
  | nil => rfl
  | cons name later ih => simp [openAfter, ih]

/-- A run over closing tags for the innermost names closes them. -/
theorem openAfter_map_closing (names outer : List Text) :
    openAfter (names ++ outer) (names.map .closing) = some outer := by
  induction names with
  | nil => rfl
  | cons name later ih => simp [openAfter, ih]

/-- Open tags have names if the tags that open them do. -/
theorem isTagName_of_openAfter {stack after : List Text} {spans : List Span}
    (hstack : ∀ name ∈ stack, isTagName name = true)
    (hnamed : ∀ span ∈ spans, span.isNamed = true) (h : openAfter stack spans = some after) :
    ∀ name ∈ after, isTagName name = true := by
  induction spans generalizing stack with
  | nil =>
    obtain rfl : stack = after := by simpa [openAfter] using h
    exact hstack
  | cons span later ih =>
    obtain ⟨hspan, hlater⟩ := List.forall_mem_cons.mp hnamed
    cases span with
    | text content => exact ih hstack hlater h
    | opening name => exact ih (List.forall_mem_cons.mpr ⟨hspan, hstack⟩) hlater h
    | closing name =>
      cases stack with
      | nil => simp [openAfter] at h
      | cons innermost outer =>
        by_cases hname : innermost = name
        · rw [openAfter, if_pos hname] at h
          exact ih (List.forall_mem_cons.mp hstack).2 hlater h
        · simp [openAfter, hname] at h

/-- The check accepts exactly the lists that close every tag. -/
theorem checkNesting_eq_ok_iff (position : Nat) (stack : List (Text × Nat)) (spans : List Span) :
    checkNesting position stack spans = .ok () ↔ openAfter (stack.map (·.1)) spans = some [] := by
  induction spans generalizing position stack with
  | nil => cases stack <;> simp [checkNesting, openAfter]
  | cons span later ih =>
    cases span with
    | text content => simpa [checkNesting, openAfter] using ih _ stack
    | opening name => simpa [checkNesting, openAfter] using ih _ ((name, position) :: stack)
    | closing name =>
      cases stack with
      | nil => simp [checkNesting, openAfter]
      | cons entry outer =>
        by_cases hname : entry.1 = name
        · simpa [checkNesting, openAfter, hname] using ih _ outer
        · simp [checkNesting, openAfter, hname]

/-! ### Unpaired tags -/

namespace Unpaired

/-- A last span is one more step. -/
theorem ofSpans_concat (spans : List Span) (span : Span) :
    ofSpans (spans ++ [span]) = step (ofSpans spans) span := by
  simp [ofSpans]

/-- Unpaired tags stand in the list that they are found in. -/
theorem mem_of_mem_ofSpans (spans : List Span) :
    (∀ name ∈ (ofSpans spans).closings, Span.closing name ∈ spans) ∧
      ∀ name ∈ (ofSpans spans).openings, Span.opening name ∈ spans := by
  induction spans using List.reverseRecOn with
  | nil => simp [ofSpans]
  | append_singleton spans span ih =>
    rw [ofSpans_concat]
    obtain ⟨hclosings, hopenings⟩ := ih
    cases span with
    | text content => simp_all [step]
    | opening name => simp_all [step]
    | closing name =>
      cases hopen : (ofSpans spans).openings with
      | nil => simp_all [step]
      | cons innermost outer => simp_all [step]

/-- A slice that runs through closes the innermost names of the stack before it, and leaves its
unpaired opening tags on the stack after it. It needs no more than those names to run. -/
theorem openAfter_ofSpans {before after : List Text} {spans : List Span}
    (h : openAfter before spans = some after) :
    openAfter (ofSpans spans).closings.reverse spans = some (ofSpans spans).openings ∧
      ∃ outer, before = (ofSpans spans).closings.reverse ++ outer ∧
        after = (ofSpans spans).openings ++ outer := by
  induction spans using List.reverseRecOn generalizing after with
  | nil =>
    obtain rfl : before = after := by simpa [openAfter] using h
    exact ⟨rfl, before, rfl, rfl⟩
  | append_singleton spans span ih =>
    obtain ⟨between, hspans, hspan⟩ := exists_openAfter_of_append h
    obtain ⟨hrun, outer, hbefore, hbetween⟩ := ih hspans
    rw [ofSpans_concat, openAfter_append]
    cases span with
    | text content =>
      obtain rfl : between = after := by simpa [openAfter] using hspan
      exact ⟨by simp [step, hrun, openAfter], outer, hbefore, hbetween⟩
    | opening name =>
      obtain rfl : name :: between = after := by simpa [openAfter] using hspan
      exact ⟨by simp [step, hrun, openAfter], outer, hbefore, by simp [step, hbetween]⟩
    | closing name =>
      cases hopen : (ofSpans spans).openings with
      | nil =>
        simp only [hopen, List.nil_append] at hrun hbetween
        subst hbetween
        cases between with
        | nil => simp [openAfter] at hspan
        | cons innermost rest =>
          obtain ⟨rfl, rfl⟩ : innermost = name ∧ rest = after := by
            simpa [openAfter] using hspan
          have hframe := openAfter_frame [innermost] hrun
          exact ⟨by simp [step, hopen, hframe, openAfter], rest,
            by simp [step, hopen, hbefore], by simp [step, hopen]⟩
      | cons innermost rest =>
        simp only [hopen] at hrun hbetween
        subst hbetween
        obtain ⟨rfl, rfl⟩ : innermost = name ∧ rest ++ outer = after := by
          simpa [openAfter] using hspan
        exact ⟨by simp [step, hopen, hrun, openAfter], outer, by simp [step, hopen, hbefore],
          by simp [step, hopen]⟩

end Unpaired

/-- The tags left open by a list that needs none before it, outermost first. -/
theorem openTags_of_openAfter {spans : List Span} {after : List Text}
    (h : openAfter [] spans = some after) : openTags spans = after.reverse := by
  obtain ⟨_, outer, hbefore, hafter⟩ := Unpaired.openAfter_ofSpans h
  obtain ⟨_, rfl⟩ := List.append_eq_nil_iff.mp hbefore.symm
  rw [openTags, hafter, List.append_nil]

/-! ### Pruning -/

/-- A last span is pruned against what was kept before it. -/
theorem prune_concat (spans : List Span) (span : Span) :
    prune (spans ++ [span]) = (pruneStep (prune spans).reverse span).reverse := by
  simp [prune]

/-- What one step of pruning leaves: everything, or all but an empty text, or all but a pair of tags
with nothing between them. -/
theorem pruneStep_cases (kept : List Span) (span : Span) :
    pruneStep kept span = span :: kept ∨
      (span = .text [] ∧ pruneStep kept span = kept) ∨
      ∃ name, span = .closing name ∧ kept = .opening name :: pruneStep kept span := by
  unfold pruneStep
  split
  · exact Or.inr (Or.inl ⟨rfl, rfl⟩)
  · next name last before =>
    split
    · next hname => exact Or.inr (Or.inr ⟨name, rfl, by rw [hname]⟩)
    · exact Or.inl rfl
  · exact Or.inl rfl

/-- Pruning keeps every view of a list in which neither an empty text at its end counts nor a pair
of tags with nothing between them. -/
theorem prune_view {α : Type} (view : List Span → α)
    (hconcat : ∀ spans spans' span, view spans = view spans' →
      view (spans ++ [span]) = view (spans' ++ [span]))
    (htext : ∀ spans, view (spans ++ [.text []]) = view spans)
    (hpair : ∀ spans name, view (spans ++ [.opening name] ++ [.closing name]) = view spans)
    (spans : List Span) : view (prune spans) = view spans := by
  induction spans using List.reverseRecOn with
  | nil => rfl
  | append_singleton spans span ih =>
    rw [prune_concat, ← hconcat _ _ span ih]
    rcases pruneStep_cases (prune spans).reverse span with h | ⟨rfl, h⟩ | ⟨name, rfl, h⟩
    · rw [h, List.reverse_cons, List.reverse_reverse]
    · rw [h, List.reverse_reverse, htext]
    · generalize pruneStep (prune spans).reverse (.closing name) = rest at h
      have hrest : prune spans = rest.reverse ++ [.opening name] := by
        rw [← List.reverse_reverse (prune spans), h, List.reverse_cons]
      rw [hrest, hpair]

/-- Dropping empty pairs does not change what a run leaves open. -/
theorem openAfter_prune (stack : List Text) (spans : List Span) :
    openAfter stack (prune spans) = openAfter stack spans := by
  apply prune_view (openAfter stack)
  · intro spans spans' span h
    rw [openAfter_append, h, openAfter_append]
  · intro spans
    rw [openAfter_append]
    cases openAfter stack spans <;> rfl
  · intro spans name
    rw [List.append_assoc, openAfter_append]
    cases openAfter stack spans <;> simp [openAfter]

/-- Dropping empty pairs drops no text. -/
theorem plainText_prune (spans : List Span) : plainText (prune spans) = plainText spans := by
  apply prune_view plainText
  · intro spans spans' span h
    rw [plainText_append, h, plainText_append]
  · intro spans
    simp [Span.content]
  · intro spans name
    simp [Span.content]

/-- Pruning brings in no span. -/
theorem mem_of_mem_prune {span : Span} (spans : List Span) (h : span ∈ prune spans) :
    span ∈ spans := by
  induction spans using List.reverseRecOn with
  | nil => exact h
  | append_singleton spans last ih =>
    rw [prune_concat, List.mem_reverse] at h
    rw [List.mem_append, List.mem_singleton]
    rcases pruneStep_cases (prune spans).reverse last with hstep | ⟨_, hstep⟩ | ⟨name, _, hstep⟩
    · rw [hstep, List.mem_cons, List.mem_reverse] at h
      exact h.symm.imp ih id
    · rw [hstep, List.mem_reverse] at h
      exact Or.inl (ih h)
    · refine Or.inl (ih (List.mem_reverse.mp ?_))
      rw [hstep]
      exact List.mem_cons_of_mem _ h

/-! ### Rebalancing -/

/-- A slice that runs through, rebalanced, closes every tag that it opens and no other. -/
theorem openAfter_rebalance {before after : List Text} {spans : List Span}
    (h : openAfter before spans = some after) : openAfter [] (rebalance spans) = some [] := by
  obtain ⟨hrun, _⟩ := Unpaired.openAfter_ofSpans h
  have hclose := openAfter_map_closing (Unpaired.ofSpans spans).openings []
  rw [List.append_nil] at hclose
  simp [rebalance, openAfter_prune, openAfter_append, openAfter_map_opening, hrun, hclose]

/-- Rebalancing leaves the text as it is. -/
@[simp] theorem plainText_rebalance (spans : List Span) :
    plainText (rebalance spans) = plainText spans := by
  simp [rebalance, plainText_prune]

/-- Rebalancing brings in tags of the names that were there. -/
theorem isNamed_of_mem_rebalance {spans : List Span} (h : ∀ span ∈ spans, span.isNamed = true) :
    ∀ span ∈ rebalance spans, span.isNamed = true := by
  obtain ⟨hclosings, hopenings⟩ := Unpaired.mem_of_mem_ofSpans spans
  intro span hspan
  have hmem := mem_of_mem_prune _ hspan
  simp only [List.mem_append, List.mem_map] at hmem
  rcases hmem with (⟨name, hname, rfl⟩ | hspan) | ⟨name, hname, rfl⟩
  · have hnamed := h (.closing name) (hclosings name hname)
    exact hnamed
  · exact h span hspan
  · have hnamed := h (.opening name) (hopenings name hname)
    exact hnamed

end Markup

end TextGrid
