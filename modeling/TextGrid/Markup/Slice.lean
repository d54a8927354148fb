import TextGrid.Cluster.Width
import TextGrid.Markup.Parse

/-!
# Slices of marked-up text

A slice keeps the clusters at one end of a span list that fit in a number of cells. Every cut lies
between clusters. A forced split takes a first cluster that does not fit, so that breaking a long
word always makes progress (`textLength_tail_split_lt`).
-/

namespace TextGrid

namespace Markup

/-- Cells that the text spans take. -/
def spansWidth (spans : List Span) : Nat :=
  sumNat (spans.map fun span => Text.width span.content)

/-- Cells that a marked-up text takes. Without a bracket there is nothing to parse. -/
def displayWidth (text : Text) : Except MarkupError Nat :=
  if text.contains '[' then return spansWidth (← parse text)
  else return Text.width text

/-- The leading clusters that fit in `width` cells after `used` of them, the clusters after those,
and the cells then used. With `force` the first cluster is taken in any case. -/
def fit (width : Int) : Bool → Nat → List Text → List Text × List Text × Nat
  | _, used, [] => ([], [], used)
  | force, used, cluster :: later =>
    let next := used + Cluster.width cluster
    if width < next ∧ force = false then ([], cluster :: later, used)
    else
      let (kept, rest, reached) := fit width false next later
      (cluster :: kept, rest, reached)

/-- The two sides of a cut, and the cells that the first one takes. -/
structure Split where
  head : List Span
  tail : List Span
  used : Nat
  deriving DecidableEq, Repr

/-- `split` with some cells already used. -/
def splitFrom (width : Int) (force : Bool) : Nat → List Span → Split
  | used, [] => ⟨[], [], used⟩
  | used, .text content :: later =>
    match fit width (force && used == 0) used (Cluster.segment content) with
    | (_, [], reached) =>
      let after := splitFrom width force reached later
      { after with head := .text content :: after.head }
    | (kept, rest, reached) =>
      let head := if kept.flatten.isEmpty then [] else [.text kept.flatten]
      ⟨head, .text rest.flatten :: later, reached⟩
  | used, tag :: later =>
    let after := splitFrom width force used later
    { after with head := tag :: after.head }

/-- Cuts a span list after the last cluster that fits in `width` cells. Tags before the cut stay
with the head, and neither side is rebalanced. With `force`, a first cluster wider than `width` goes
into the head. -/
def split (width : Int) (force : Bool) (spans : List Span) : Split :=
  splitFrom width force 0 spans

/-- A rebalanced slice and the cells that it takes. -/
structure Slice where
  spans : List Span
  used : Nat
  deriving DecidableEq, Repr

/-- The leading clusters that fit in `width` cells. -/
def takePrefix (spans : List Span) (width : Int) : Slice :=
  let cut := split width false spans
  ⟨rebalance cut.head, cut.used⟩

/-- The spans kept at the end of a list, the cells they take, and whether a cluster before them did
not fit. -/
structure Ending where
  kept : List Span
  used : Nat
  full : Bool
  deriving DecidableEq, Repr

/-- The spans at the end of a list whose clusters fit in `width` cells, counted from the end. -/
def ending (width : Int) : List Span → Ending
  | [] => ⟨[], 0, false⟩
  | span :: later =>
    let after := ending width later
    if after.full then after
    else match span with
      | .text content =>
        let (taken, rest, reached) := fit width false after.used (Cluster.segment content).reverse
        ⟨if taken.isEmpty then after.kept else .text taken.reverse.flatten :: after.kept, reached,
          !rest.isEmpty⟩
      | tag => { after with kept := tag :: after.kept }

/-- The trailing clusters that fit in `width` cells. -/
def takeSuffix (spans : List Span) (width : Int) : Slice :=
  let last := ending width spans
  ⟨rebalance last.kept, last.used⟩

/-- The leading part of a marked-up text that fits in `width` cells. -/
def cut (text : Text) (width : Int) : Except MarkupError Text :=
  return join (takePrefix (← parse text) (max width 0)).spans

/-! ### Progress of a forced split -/

/-- The clusters that fit and those that are left make up all clusters. -/
theorem fit_append (width : Int) (force : Bool) (used : Nat) (clusters : List Text) :
    (fit width force used clusters).1 ++ (fit width force used clusters).2.1 = clusters := by
  induction clusters generalizing force used with
  | nil => rfl
  | cons cluster later ih =>
    simp only [fit]
    split
    · rfl
    · simp [ih]

/-- Code points in the text spans. -/
def textLength (spans : List Span) : Nat :=
  (plainText spans).length

/-- The code points of a first span count towards those of the whole. -/
theorem textLength_cons (span : Span) (spans : List Span) :
    textLength (span :: spans) = span.content.length + textLength spans := by
  simp [textLength, plainText]

/-- A forced fit takes a cluster if there is one. -/
theorem fit_forced_ne_nil {width : Int} {used : Nat} {clusters : List Text}
    (hclusters : clusters ≠ []) : (fit width true used clusters).1 ≠ [] := by
  cases clusters with
  | nil => exact absurd rfl hclusters
  | cons cluster later => simp [fit]

/-- The tail of a split holds no more text than the whole. -/
theorem textLength_tail_splitFrom_le (width : Int) (force : Bool) (used : Nat)
    (spans : List Span) :
    textLength (splitFrom width force used spans).tail ≤ textLength spans := by
  induction spans generalizing used with
  | nil => simp [splitFrom]
  | cons span later ih =>
    cases span with
    | text content =>
      have happend := fit_append width (force && used == 0) used (Cluster.segment content)
      simp only [splitFrom]
      split
      · next reached hfit =>
        have := ih reached
        simp only [textLength_cons]
        omega
      · next kept rest reached _ hfit =>
        rw [hfit] at happend
        have hlength := congrArg (List.length ∘ List.flatten) happend
        simp only [Function.comp, List.flatten_append, List.length_append,
          Cluster.flatten_segment] at hlength
        simp only [textLength_cons, Span.content]
        omega
    | opening name =>
      have := ih used
      simp only [splitFrom, textLength_cons]
      omega
    | closing name =>
      have := ih used
      simp only [splitFrom, textLength_cons]
      omega

/-- A forced split leaves less text than there was, if there was any. -/
theorem textLength_tail_split_lt (width : Int) {spans : List Span} (h : 0 < textLength spans) :
    textLength (split width true spans).tail < textLength spans := by
  unfold split
  induction spans with
  | nil => simp [textLength, plainText] at h
  | cons span later ih =>
    cases span with
    | text content =>
      have happend := fit_append width true 0 (Cluster.segment content)
      simp only [splitFrom, Bool.true_and, beq_self_eq_true]
      by_cases hcontent : content = []
      · subst hcontent
        have hlater : 0 < textLength later := by simpa [textLength_cons, Span.content] using h
        simpa [Cluster.segment, fit, textLength_cons, Span.content] using ih hlater
      · have hsegment : Cluster.segment content ≠ [] := mt Cluster.segment_eq_nil_iff.mp hcontent
        have hkept : (fit width true 0 (Cluster.segment content)).1 ≠ [] :=
          fit_forced_ne_nil hsegment
        split
        · next reached hfit =>
          have hle := textLength_tail_splitFrom_le width true reached later
          have hpos : 0 < content.length := List.length_pos_iff.mpr hcontent
          simp only [textLength_cons, Span.content]
          omega
        · next kept rest reached _ hfit =>
          rw [hfit] at happend hkept
          obtain ⟨cluster, others, rfl⟩ := List.exists_cons_of_ne_nil hkept
          have hmem : cluster ∈ Cluster.segment content := by rw [← happend]; simp
          have hcluster : cluster ≠ [] := Cluster.ne_nil_of_mem_segment hmem
          have hpos : 0 < cluster.length := List.length_pos_iff.mpr hcluster
          have hlength := congrArg (List.length ∘ List.flatten) happend
          simp only [Function.comp, List.cons_append, List.flatten_cons, List.flatten_append,
            List.length_append, Cluster.flatten_segment] at hlength
          simp only [textLength_cons, Span.content]
          omega
    | opening name =>
      have hlater : 0 < textLength later := by simpa [textLength_cons, Span.content] using h
      simpa [splitFrom, textLength_cons, Span.content] using ih hlater
    | closing name =>
      have hlater : 0 < textLength later := by simpa [textLength_cons, Span.content] using h
      simpa [splitFrom, textLength_cons, Span.content] using ih hlater

/-- Spans that take a cell hold some text. -/
theorem textLength_pos_of_spansWidth_pos {spans : List Span} (h : 0 < spansWidth spans) :
    0 < textLength spans := by
  induction spans with
  | nil => simp [spansWidth] at h
  | cons span later ih =>
    rw [textLength_cons]
    by_cases hcontent : span.content = []
    · have hlater : 0 < spansWidth later := by
        simpa [spansWidth, hcontent, Text.width] using h
      have := ih hlater
      omega
    · have : 0 < span.content.length := List.length_pos_iff.mpr hcontent
      omega

end Markup

end TextGrid
