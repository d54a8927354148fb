import Mathlib.Logic.Function.Iterate
import TextGrid.Markup.Wrap
import TextGrid.Proofs.MaximalSlices

/-!
# Exact splits

A split puts every span on one of its sides. Only one text may be cut, between two of its clusters,
so the cells of both sides add up to those of the whole where clusters stay behind a cut. The tail
begins with the cluster that stopped the cut, and a forced split exceeds its width by one cluster at
most (`split_exact`). Since each forced split takes a cluster, breaking a long word comes to an
end.
-/

namespace TextGrid.Markup

/-! ### Clusters of spans -/

/-- The clusters of the text spans, in order. -/
def clusterTexts (spans : List Span) : List Text :=
  spans.flatMap fun span => Cluster.segment span.content

/-- No spans have no clusters. -/
@[simp] theorem clusterTexts_nil : clusterTexts [] = [] := rfl

/-- The clusters of a first span come first. -/
@[simp] theorem clusterTexts_cons (span : Span) (spans : List Span) :
    clusterTexts (span :: spans) = Cluster.segment span.content ++ clusterTexts spans := by
  simp [clusterTexts]

/-- The clusters of some spans come before those of the spans behind them. -/
@[simp] theorem clusterTexts_append (left right : List Span) :
    clusterTexts (left ++ right) = clusterTexts left ++ clusterTexts right := by
  simp [clusterTexts]

/-- The styles of clusters aside, the clusters with styles are those of the texts. -/
theorem map_fst_clustersFrom (stack : List Text) (spans : List Span) :
    (clustersFrom stack spans).map (·.1) = clusterTexts spans := by
  induction spans generalizing stack with
  | nil => rfl
  | cons span later ih =>
    rw [clusterTexts_cons]
    cases span with
    | text content =>
      rw [clustersFrom, List.map_append, ih, List.map_map]
      simp [Span.content, Function.comp_def]
    | opening name => exact ih _
    | closing name => exact ih _

/-- Spans take the cells of their clusters. -/
theorem spansWidth_eq_clusterTexts (spans : List Span) :
    spansWidth spans = sumNat ((clusterTexts spans).map Cluster.width) := by
  rw [← clustersWidth_clustersFrom [] spans, clustersWidth, ← map_fst_clustersFrom [] spans,
    List.map_map]
  rfl

/-! ### The sides of a split -/

/-- Whether two lists are the sides of a cut through a third one: the cut goes between two spans, or
between two clusters of a text. -/
inductive Divides (spans : List Span) : List Span → List Span → Prop
  | between {head tail : List Span} (h : head ++ tail = spans) : Divides spans head tail
  | within {before later : List Span} {left right : List Text} (hleft : left ≠ [])
    (hright : right ≠ []) (hsegment : Cluster.segment (left ++ right).flatten = left ++ right)
    (h : before ++ .text (left ++ right).flatten :: later = spans) :
    Divides spans (before ++ [.text left.flatten]) (.text right.flatten :: later)

namespace Divides

variable {spans head tail : List Span}

/-- A span before a list that is cut goes to the head. -/
theorem cons (h : Divides spans head tail) (span : Span) :
    Divides (span :: spans) (span :: head) tail := by
  cases h with
  | between h => exact .between (by rw [List.cons_append, h])
  | @within before later left right hleft hright hsegment h =>
    have hcons : (span :: before) ++ .text (left ++ right).flatten :: later = span :: spans := by
      rw [List.cons_append, h]
    exact .within hleft hright hsegment hcons

/-- The clusters of both sides are those of the whole where clusters stay behind a cut. -/
theorem clusterTexts_eq (h : Divides spans head tail)
    (hseparable : ∀ content, Span.text content ∈ spans → Cluster.Separable content) :
    clusterTexts spans = clusterTexts head ++ clusterTexts tail := by
  cases h with
  | between h => rw [← h, clusterTexts_append]
  | @within before later left right hleft hright hsegment h =>
    subst h
    have hbehind := hseparable _ (by simp) left right hsegment
    have hbefore := Cluster.segment_flatten_left hsegment
    rw [clusterTexts_append, clusterTexts_append, clusterTexts_cons, clusterTexts_cons,
      clusterTexts_cons]
    simp only [Span.content, hsegment, hbehind, hbefore, clusterTexts_nil, List.append_nil,
      List.append_assoc]

end Divides

/-- A split cuts between two spans or two clusters, and its tail is empty or begins with a text. -/
theorem splitFrom_divides (width : Int) (force : Bool) (used : Nat) (spans : List Span) :
    let cut := splitFrom width force used spans
    Divides spans cut.head cut.tail ∧
      (cut.tail = [] ∨ ∃ content later, content ≠ [] ∧ cut.tail = .text content :: later) := by
  intro cut
  induction spans generalizing used with
  | nil => exact ⟨.between rfl, Or.inl rfl⟩
  | cons span later ih =>
    cases span with
    | opening name => exact ⟨(ih used).1.cons _, (ih used).2⟩
    | closing name => exact ⟨(ih used).1.cons _, (ih used).2⟩
    | text content =>
      simp only [cut, splitFrom]
      split
      · next reached hfit => exact ⟨(ih reached).1.cons _, (ih reached).2⟩
      · next kept rest reached hrest hfit =>
        obtain ⟨happend, _⟩ := fit_spec hfit
        have hright : rest.flatten ≠ [] := by
          obtain ⟨next, others, rfl⟩ := List.exists_cons_of_ne_nil hrest
          have hmem : next ∈ Cluster.segment content := by
            rw [← happend]
            simp
          have hnext := Cluster.ne_nil_of_mem_segment hmem
          simp [hnext]
        have hcontent : (kept ++ rest).flatten = content := by
          rw [happend, Cluster.flatten_segment]
        refine ⟨?_, Or.inr ⟨_, _, hright, rfl⟩⟩
        dsimp only
        by_cases hkept : kept.flatten = []
        · rw [List.flatten_append, hkept, List.nil_append] at hcontent
          rw [hkept, hcontent]
          exact .between rfl
        · have hleft : kept ≠ [] := by
            rintro rfl
            exact hkept rfl
          have hsegment : Cluster.segment (kept ++ rest).flatten = kept ++ rest := by
            rw [hcontent, happend]
          have hwithin : [] ++ .text (kept ++ rest).flatten :: later = .text content :: later := by
            rw [hcontent, List.nil_append]
          rw [List.isEmpty_eq_false_iff.mpr hkept, if_neg Bool.false_ne_true]
          exact .within hleft hrest hsegment hwithin

/-! ### Bounds of a split -/

/-- Where more cells are used than there are, no cluster fits. -/
theorem fit_of_full {width : Int} {used : Nat} (h : width < used) (clusters : List Text) :
    fit width false used clusters = ([], clusters, used) := by
  cases clusters with
  | nil => rfl
  | cons cluster later => rw [fit, if_pos ⟨by omega, rfl⟩]

/-- A cut that is forced exceeds the width by its first cluster or not at all. -/
theorem fit_bound {width : Int} {force : Bool} {used reached : Nat}
    {clusters kept rest : List Text} (hfit : fit width force used clusters = (kept, rest, reached))
    (hused : used ≤ max width 0) :
    (reached : Int) ≤ max width 0 ∨
      force = true ∧ max width 0 < reached ∧ ∃ cluster, kept = [cluster] := by
  cases clusters with
  | nil =>
    obtain ⟨_, _, rfl⟩ : kept = [] ∧ rest = [] ∧ used = reached := by simpa [fit] using hfit
    exact Or.inl hused
  | cons cluster later =>
    by_cases hforce : force = false
    · exact Or.inl ((fit_spec hfit).2.2.2 hforce hused)
    · obtain ⟨⟨taken, left, last⟩, hlater⟩ : ∃ cut,
          fit width false (used + Cluster.width cluster) later = cut := ⟨_, rfl⟩
      rw [fit, if_neg fun hstop => hforce hstop.2, hlater] at hfit
      obtain ⟨rfl, rfl, rfl⟩ : cluster :: taken = kept ∧ left = rest ∧ last = reached := by
        simpa using hfit
      by_cases hnext : ((used + Cluster.width cluster : Nat) : Int) ≤ max width 0
      · exact Or.inl ((fit_spec hlater).2.2.2 rfl hnext)
      · rw [fit_of_full (by omega)] at hlater
        obtain ⟨rfl, _, rfl⟩ : [] = taken ∧ later = left ∧ used + Cluster.width cluster = last := by
          simpa using hlater
        exact Or.inr ⟨by simpa using hforce, by omega, cluster, rfl⟩

/-- Where more cells are used than there are, a split takes no cluster. -/
theorem clusterTexts_splitFrom_of_full {width : Int} {force : Bool} {used : Nat}
    (h : max width 0 < used) (spans : List Span) :
    clusterTexts (splitFrom width force used spans).head = [] := by
  induction spans with
  | nil => rfl
  | cons span later ih =>
    cases span with
    | opening name => simpa [splitFrom, Span.content, Cluster.segment] using ih
    | closing name => simpa [splitFrom, Span.content, Cluster.segment] using ih
    | text content =>
      have hused : (force && used == 0) = false := by
        rw [beq_eq_false_iff_ne.mpr (by omega), Bool.and_false]
      rw [splitFrom, hused, fit_of_full (by omega)]
      cases hsegment : Cluster.segment content with
      | nil => simpa [Span.content, hsegment] using ih
      | cons cluster others => rfl

/-- How many clusters of spans take any cells. -/
def visibleClusters (spans : List Span) : Nat :=
  (clusterTexts spans).countP (0 < Cluster.width ·)

/-- The visible clusters of a first span count towards those of the whole. -/
@[simp] theorem visibleClusters_cons (span : Span) (spans : List Span) :
    visibleClusters (span :: spans) =
      (Cluster.segment span.content).countP (0 < Cluster.width ·) + visibleClusters spans := by
  simp [visibleClusters]

/-- Where there are no clusters, none is visible. -/
theorem visibleClusters_of_clusterTexts {spans : List Span} (h : clusterTexts spans = []) :
    visibleClusters spans = 0 := by
  rw [visibleClusters, h, List.countP_nil]

/-- Clusters that take no cells together take none each. -/
theorem countP_eq_zero_of_sumNat {clusters : List Text}
    (h : sumNat (clusters.map Cluster.width) = 0) :
    clusters.countP (0 < Cluster.width ·) = 0 := by
  induction clusters with
  | nil => rfl
  | cons cluster later ih =>
    rw [List.map_cons, sumNat_cons] at h
    rw [List.countP_cons_of_neg (by simpa using by omega), ih (by omega)]

/-- A cluster that takes a cut beyond its width is one with cells. -/
theorem countP_singleton_of_over {width : Int} {force : Bool} {used reached : Nat} {cluster : Text}
    (hforce : (force && used == 0) = true) (hover : max width 0 < reached)
    (hreached : reached = used + sumNat ([cluster].map Cluster.width)) :
    force = true ∧ used = 0 ∧ [cluster].countP (0 < Cluster.width ·) = 1 := by
  rw [Bool.and_eq_true, beq_iff_eq] at hforce
  rw [List.map_singleton, sumNat_cons, sumNat_nil] at hreached
  have hpositive : 0 < Cluster.width cluster := by omega
  exact ⟨hforce.1, hforce.2, by simp [hpositive]⟩

/-- A split stays within its width, or is forced and takes one cluster with cells. -/
theorem splitFrom_bound {width : Int} {used : Nat} (hused : used ≤ max width 0) (force : Bool)
    (spans : List Span) :
    let cut := splitFrom width force used spans
    (cut.used : Int) ≤ max width 0 ∨
      force = true ∧ used = 0 ∧ visibleClusters cut.head = 1 := by
  intro cut
  induction spans generalizing used with
  | nil => exact Or.inl hused
  | cons span later ih =>
    cases span with
    | opening name => simpa [cut, splitFrom, Span.content, Cluster.segment] using ih hused
    | closing name => simpa [cut, splitFrom, Span.content, Cluster.segment] using ih hused
    | text content =>
      simp only [cut, splitFrom]
      split
      · next kept reached hfit =>
        obtain ⟨happend, hreached, _⟩ := fit_spec hfit
        rw [List.append_nil] at happend
        rw [visibleClusters_cons, Span.content, ← happend]
        rcases fit_bound hfit hused with hfits | ⟨hforce, hover, cluster, rfl⟩
        · rcases ih hfits with hlater | ⟨hforce, hzero, hone⟩
          · exact Or.inl hlater
          · have hnone := countP_eq_zero_of_sumNat (by omega : sumNat (kept.map Cluster.width) = 0)
            exact Or.inr ⟨hforce, by omega, by rw [hnone, hone]⟩
        · -- Behind the cluster that exceeds the width no other one is taken.
          obtain ⟨hforced, hzero, hone⟩ := countP_singleton_of_over hforce hover hreached
          have hlater : visibleClusters (splitFrom width force reached later).head = 0 :=
            visibleClusters_of_clusterTexts (clusterTexts_splitFrom_of_full hover later)
          exact Or.inr ⟨hforced, hzero, by rw [hone, hlater]⟩
      · next kept rest reached hrest hfit =>
        obtain ⟨happend, hreached, _⟩ := fit_spec hfit
        rcases fit_bound hfit hused with hfits | ⟨hforce, hover, cluster, rfl⟩
        · exact Or.inl hfits
        · obtain ⟨hforced, hzero, hone⟩ := countP_singleton_of_over hforce hover hreached
          have hcluster : cluster ≠ [] := Cluster.ne_nil_of_mem_segment (by
            rw [← happend]
            exact List.mem_cons_self ..)
          have hsegment := Cluster.segment_flatten_left happend.symm
          rw [List.flatten_singleton] at hsegment ⊢
          refine Or.inr ⟨hforced, hzero, ?_⟩
          dsimp only
          rw [List.isEmpty_eq_false_iff.mpr hcluster, if_neg Bool.false_ne_true,
            visibleClusters_cons, Span.content, hsegment, hone]
          rfl

/-- A forced split of spans with text takes a cluster. -/
theorem clusterTexts_split_ne_nil (width : Int) {spans : List Span}
    (hfilled : Span.text [] ∉ spans) (htext : hasText spans = true) :
    clusterTexts (split width true spans).head ≠ [] := by
  rw [split]
  induction spans with
  | nil => simp [hasText] at htext
  | cons span later ih =>
    rw [List.mem_cons, not_or] at hfilled
    cases span with
    | opening name =>
      simpa [splitFrom, Span.content, Cluster.segment] using
        ih hfilled.2 (by simpa [hasText, Span.isText] using htext)
    | closing name =>
      simpa [splitFrom, Span.content, Cluster.segment] using
        ih hfilled.2 (by simpa [hasText, Span.isText] using htext)
    | text content =>
      have hcontent : content ≠ [] := fun hnil => hfilled.1 (by rw [hnil])
      have hsegment : Cluster.segment content ≠ [] := mt Cluster.segment_eq_nil_iff.mp hcontent
      simp only [splitFrom, Bool.true_and, beq_self_eq_true]
      split
      · simp [Span.content, hsegment]
      · next kept rest reached _ hfit =>
        obtain ⟨happend, _⟩ := fit_spec hfit
        have hkept : kept ≠ [] := by
          have hforced : (fit width true 0 (Cluster.segment content)).1 ≠ [] :=
            fit_forced_ne_nil hsegment
          rwa [hfit] at hforced
        obtain ⟨first, others, rfl⟩ := List.exists_cons_of_ne_nil hkept
        have hfirst : first ≠ [] := Cluster.ne_nil_of_mem_segment (by
          rw [← happend]
          exact List.mem_cons_self ..)
        simp [hfirst, Span.content, Cluster.segment_eq_nil_iff]

/-! ### Exactness -/

/-- What a split of spans is: its sides divide them, it says how many cells the head takes, the
cells of both sides add up, and its tail begins with a cluster that does not fit. It keeps to the
width unless it is forced and one cluster with cells is taken, and a forced one takes a cluster. -/
structure Split.IsExact (cut : Split) (width : Int) (force : Bool) (spans : List Span) :
    Prop where
  divides : Divides spans cut.head cut.tail
  used : cut.used = spansWidth cut.head
  adds : spansWidth cut.head + spansWidth cut.tail = spansWidth spans
  stops : cut.tail = [] ∨ ∃ content later first others, cut.tail = .text content :: later ∧
    Cluster.segment content = first :: others ∧ width < (cut.used + Cluster.width first : Nat)
  bound : (cut.used : Int) ≤ max width 0 ∨ force = true ∧ visibleClusters cut.head = 1
  progress : force = true → hasText spans = true → clusterTexts cut.head ≠ []

/-- A split of spans whose texts can be taken apart between clusters is exact. -/
theorem isExact_split {spans : List Span} (hfilled : Span.text [] ∉ spans)
    (hseparable : ∀ content, Span.text content ∈ spans → Cluster.Separable content)
    (width : Int) (force : Bool) : (split width force spans).IsExact width force spans := by
  obtain ⟨hdivides, htail⟩ := splitFrom_divides width force 0 spans
  obtain ⟨rest, hclusters, hused, hstop, _⟩ := splitFrom_clusters width force 0 spans []
  have hparts := hdivides.clusterTexts_eq hseparable
  rw [Nat.zero_add, clustersWidth_clustersFrom] at hused
  -- The clusters behind the head are those of the tail.
  have hrest : rest.map (·.1) = clusterTexts (split width force spans).tail := by
    have hall := congrArg (List.map (·.1)) hclusters
    rw [List.map_append, map_fst_clustersFrom, map_fst_clustersFrom, hparts] at hall
    exact (List.append_cancel_left hall).symm
  constructor
  · exact hdivides
  · exact hused
  · rw [spansWidth_eq_clusterTexts spans, hparts, List.map_append, sumNat_append,
      ← spansWidth_eq_clusterTexts, ← spansWidth_eq_clusterTexts]
    rfl
  · rcases htail with hnone | ⟨content, later, hcontent, hsome⟩
    · exact Or.inl hnone
    · obtain ⟨first, others, hsegment⟩ :=
        List.exists_cons_of_ne_nil (mt Cluster.segment_eq_nil_iff.mp hcontent)
      rw [split, hsome, clusterTexts_cons, Span.content, hsegment, List.cons_append] at hrest
      obtain ⟨next, more, rfl, rfl, _⟩ := List.map_eq_cons_iff.mp hrest
      exact Or.inr ⟨content, later, next.1, others, hsome, hsegment, hstop next rfl⟩
  · have hbound := splitFrom_bound (by omega : ((0 : Nat) : Int) ≤ max width 0) force spans
    exact hbound.imp_right fun hover => ⟨hover.1, hover.2.2⟩
  · rintro rfl htext
    exact clusterTexts_split_ne_nil width hfilled htext

/-! ### Breaking a word -/

/-- One round of breaking a word: what a forced split leaves of it, and the room of the next
line. -/
def breakRound (laterRoom : Nat) (state : Nat × List Span) : Nat × List Span :=
  (laterRoom, (split state.1 true state.2).tail)

/-- Whether breaking a word ends after some rounds: before each of them the rest is too wide for its
line, after the last one it fits, and the word is then broken into as many lines and that rest. -/
structure EndsAfter (rounds room laterRoom : Nat) (word : List Span) : Prop where
  before : ∀ round < rounds, let state := (breakRound laterRoom)^[round] (room, word)
    state.1 < spansWidth state.2
  after : let state := (breakRound laterRoom)^[rounds] (room, word)
    spansWidth state.2 ≤ state.1
  broken : let broken := breakWord room laterRoom word
    broken.lines.length = rounds ∧
      (broken.room, broken.rest) = (breakRound laterRoom)^[rounds] (room, word)

/-- Breaking a word ends, after no more rounds than the word has code points. -/
theorem exists_endsAfter (room laterRoom : Nat) (word : List Span) :
    ∃ rounds ≤ textLength word, EndsAfter rounds room laterRoom word := by
  induction room, word using breakWord.induct laterRoom with
  | case1 room word hfits =>
    refine ⟨0, Nat.zero_le _, ?_⟩
    constructor
    · intro round hround
      omega
    · exact hfits
    · rw [breakWord, dif_pos hfits]
      exact ⟨rfl, rfl⟩
  | case2 room word hover parts ih =>
    obtain ⟨rounds, hle, hends⟩ := ih
    have hshorter : textLength parts.tail < textLength word :=
      textLength_tail_split_lt room (textLength_pos_of_spansWidth_pos (by omega))
    refine ⟨rounds + 1, by omega, ?_⟩
    constructor
    · intro round hround
      cases round with
      | zero => exact Nat.lt_of_not_le hover
      | succ round =>
        rw [Function.iterate_succ_apply]
        exact hends.before round (by omega)
    · rw [Function.iterate_succ_apply]
      exact hends.after
    · obtain ⟨hlines, hrest⟩ := hends.broken
      rw [breakWord, dif_neg hover, Function.iterate_succ_apply]
      exact ⟨congrArg (· + 1) hlines, hrest⟩

/-- A split is exact where clusters stay behind a cut, and breaking any word into lines ends. -/
theorem split_exact {spans : List Span} (hfilled : Span.text [] ∉ spans)
    (hseparable : ∀ content, Span.text content ∈ spans → Cluster.Separable content)
    (width : Int) (force : Bool) :
    (split width force spans).IsExact width force spans ∧
      ∀ (room laterRoom : Nat) (word : List Span),
        ∃ rounds ≤ textLength word, EndsAfter rounds room laterRoom word :=
  ⟨isExact_split hfilled hseparable width force, exists_endsAfter⟩

/-- A mark without cells in tags before a family of two, which is too wide for one cell. -/
def markBeforeFamily : List Span :=
  [.opening ['a'], .text ['\u0301'], .closing ['a'], .text "👩‍👧x".toList]

/-- A split between a mark and a family of one cluster is exact, and breaking them ends. -/
theorem split_exact_markBeforeFamily :
    Span.text [] ∉ markBeforeFamily ∧
      (∀ content, Span.text content ∈ markBeforeFamily → Cluster.Separable content) ∧
      (split 1 true markBeforeFamily).IsExact 1 true markBeforeFamily ∧
      ∀ (room laterRoom : Nat) (word : List Span),
        ∃ rounds ≤ textLength word, EndsAfter rounds room laterRoom word := by
  have hfilled : Span.text [] ∉ markBeforeFamily := by decide +kernel
  have hmarks : (plainText markBeforeFamily).all (BreakClass.ofChar · != .prependMark) = true := by
    decide +kernel
  have hseparable : ∀ content, Span.text content ∈ markBeforeFamily →
      Cluster.Separable content := by
    intro content hmem
    refine Cluster.separable_of_forall_ne fun c hc => ?_
    have hplain : c ∈ plainText markBeforeFamily := List.mem_flatMap.mpr ⟨_, hmem, hc⟩
    simpa using List.all_eq_true.mp hmarks c hplain
  exact ⟨hfilled, hseparable, split_exact hfilled hseparable 1 true⟩

example : split 1 true markBeforeFamily =
    ⟨[.opening ['a'], .text ['\u0301'], .closing ['a'], .text "👩‍👧".toList], [.text ['x']], 2⟩ := by
  decide +kernel

end TextGrid.Markup
