import TextGrid.Proofs.ClusterCuts
import TextGrid.Proofs.KeptSpans
import TextGrid.Proofs.RoundTrip

/-!
# Slices that keep as much as fits

A slice keeps the clusters at one end of a span list, each in the styles that it has there, and as
many of them as fit (`takes_longest`). It is well nested on its own, and nothing empty is left in
it.
-/

namespace TextGrid.Markup

/-! ### Styled clusters -/

/-- A cluster with the names of the tags open around it, innermost first. -/
abbrev StyledCluster := Text × List Text

/-- The styled clusters of a span list when the names of `stack` are open before it. -/
def clustersFrom : List Text → List Span → List StyledCluster
  | _, [] => []
  | stack, .text content :: later =>
    (Cluster.segment content).map (·, stack) ++ clustersFrom stack later
  | stack, .opening name :: later => clustersFrom (name :: stack) later
  | stack, .closing _ :: later => clustersFrom stack.tail later

/-- The styled clusters of a span list. -/
def clusters (spans : List Span) : List StyledCluster :=
  clustersFrom [] spans

/-- The styled code points of styled clusters. -/
def styledChars (clusters : List StyledCluster) : List StyledChar :=
  clusters.flatMap fun cluster => cluster.1.map (·, cluster.2)

/-- Cells that styled clusters take. -/
def clustersWidth (clusters : List StyledCluster) : Nat :=
  sumNat (clusters.map fun cluster => Cluster.width cluster.1)

/-- The styled code points of some clusters come before those of the clusters behind them. -/
@[simp] theorem styledChars_append (left right : List StyledCluster) :
    styledChars (left ++ right) = styledChars left ++ styledChars right := by
  simp [styledChars]

/-- The widths of clusters add up. -/
@[simp] theorem clustersWidth_append (left right : List StyledCluster) :
    clustersWidth (left ++ right) = clustersWidth left + clustersWidth right := by
  simp [clustersWidth]

/-- Clusters in one style have the code points of their text in that style. -/
theorem styledChars_map (texts : List Text) (stack : List Text) :
    styledChars (texts.map (·, stack)) = texts.flatten.map (·, stack) := by
  induction texts with
  | nil => rfl
  | cons text later ih =>
    rw [List.flatten_cons, List.map_append, ← ih]
    rfl

/-- The style of clusters does not count for their width. -/
theorem clustersWidth_map (texts : List Text) (stack : List Text) :
    clustersWidth (texts.map (·, stack)) = sumNat (texts.map Cluster.width) := by
  rw [clustersWidth, List.map_map]
  rfl

/-- The clusters of a span list show its code points. -/
theorem styledChars_clustersFrom (stack : List Text) (spans : List Span) :
    styledChars (clustersFrom stack spans) = styledFrom stack spans := by
  induction spans generalizing stack with
  | nil => rfl
  | cons span later ih =>
    cases span with
    | text content =>
      rw [clustersFrom, styledChars_append, styledChars_map, Cluster.flatten_segment, ih,
        styledFrom]
    | opening name => exact ih _
    | closing name => exact ih _

/-- The clusters of a span list take its cells. -/
theorem clustersWidth_clustersFrom (stack : List Text) (spans : List Span) :
    clustersWidth (clustersFrom stack spans) = spansWidth spans := by
  induction spans generalizing stack with
  | nil => rfl
  | cons span later ih =>
    cases span with
    | text content =>
      have hcontent : spansWidth (.text content :: later) =
          Text.width content + spansWidth later := rfl
      rw [clustersFrom, clustersWidth_append, clustersWidth_map, ih, hcontent,
        Text.width_eq_clusteredWidth, Text.clusteredWidth]
    | opening name => exact (ih _).trans (Nat.zero_add _).symm
    | closing name => exact (ih _).trans (Nat.zero_add _).symm

/-- A text that is left out when it is empty shows its clusters all the same. -/
theorem clustersFrom_textOrNone (stack : List Text) {texts : List Text} (later : List Span)
    (h : Cluster.segment texts.flatten = texts) :
    clustersFrom stack ((if texts.flatten.isEmpty then [] else [.text texts.flatten]) ++ later) =
      texts.map (·, stack) ++ clustersFrom stack later := by
  split
  · next hempty =>
    rw [List.isEmpty_iff.mp hempty] at h
    rw [← h]
    rfl
  · rw [List.singleton_append, clustersFrom, h]

/-! ### Cuts behind the first clusters -/

/-- The head of a cut holds the first clusters, and the next one does not fit. -/
theorem splitFrom_clusters (width : Int) (force : Bool) (used : Nat) (spans : List Span)
    (stack : List Text) :
    let cut := splitFrom width force used spans
    ∃ rest, clustersFrom stack spans = clustersFrom stack cut.head ++ rest ∧
      cut.used = used + clustersWidth (clustersFrom stack cut.head) ∧
      (∀ next ∈ rest.head?, width < (cut.used + Cluster.width next.1 : Nat)) ∧
      (force = false → used ≤ max width 0 → cut.used ≤ max width 0) := by
  intro cut
  induction spans generalizing used stack with
  | nil => exact ⟨[], rfl, rfl, by simp, fun _ hused => hused⟩
  | cons span later ih =>
    cases span with
    | text content =>
      simp only [cut, splitFrom]
      split
      · next kept reached hfit =>
        obtain ⟨happend, hreached, _, hbound⟩ := fit_spec hfit
        rw [List.append_nil] at happend
        obtain ⟨rest, hrest, hused, hnext, hle⟩ := ih reached stack
        refine ⟨rest, ?_, ?_, hnext, fun hforce hstart => hle hforce ?_⟩
        · rw [clustersFrom, clustersFrom, hrest, List.append_assoc]
        · rw [hused, hreached, happend, clustersFrom, clustersWidth_append, clustersWidth_map,
            Nat.add_assoc]
        · exact hbound (by rw [hforce, Bool.false_and]) hstart
      · next kept rest reached hrest hfit =>
        obtain ⟨happend, hreached, hstop, hbound⟩ := fit_spec hfit
        have hhead := clustersFrom_textOrNone stack [] (Cluster.segment_flatten_left happend.symm)
        rw [List.append_nil, clustersFrom, List.append_nil] at hhead
        refine ⟨rest.map (·, stack) ++ clustersFrom stack later, ?_, ?_, ?_, fun hforce =>
          hbound (by rw [hforce, Bool.false_and])⟩
        · rw [hhead, clustersFrom, ← happend, List.map_append, List.append_assoc]
        · rw [hhead, hreached, clustersWidth_map]
        · obtain ⟨next, others, rfl⟩ := List.exists_cons_of_ne_nil hrest
          simpa using hstop
    | opening name => exact ih used (name :: stack)
    | closing name => exact ih used stack.tail

/-! ### Cuts before the last clusters -/

/-- What a cut at the end keeps of a span list: the last clusters, in the styles that they have in
the whole, and as many as fit. The names of `between` are open where they begin. -/
structure Ending.Holds (last : Ending) (width : Int) (stack after : List Text) (spans : List Span)
    (between : List Text) (dropped : List StyledCluster) : Prop where
  runs : openAfter between last.kept = some after
  clusters : clustersFrom stack spans = dropped ++ clustersFrom between last.kept
  used : last.used = clustersWidth (clustersFrom between last.kept)
  fits : last.used ≤ max width 0
  full : last.full = true ↔ dropped ≠ []
  whole : last.full = false → between = stack
  stops : ∀ previous ∈ dropped.getLast?,
    width < (last.used + Cluster.width previous.1 : Nat)

namespace Ending.Holds

variable {last : Ending} {width : Int} {stack next after between : List Text} {spans : List Span}
  {dropped : List StyledCluster}

/-- Nothing before a cluster that does not fit is kept. -/
theorem cons_of_full (h : last.Holds width next after spans between dropped)
    (hfull : last.full = true) {span : Span}
    (hspan : clustersFrom stack (span :: spans) =
      clustersFrom stack [span] ++ clustersFrom next spans) :
    last.Holds width stack after (span :: spans) between
      (clustersFrom stack [span] ++ dropped) := by
  have hne := h.full.mp hfull
  exact
    { runs := h.runs
      clusters := by rw [hspan, h.clusters, List.append_assoc]
      used := h.used
      fits := h.fits
      full := by simp [hfull, hne]
      whole := fun hpart => by rw [hfull] at hpart; cases hpart
      stops := by
        rw [List.getLast?_append_of_ne_nil _ hne]
        exact h.stops }

/-- A tag before spans that are kept whole is kept. -/
theorem cons_tag (h : last.Holds width next after spans next dropped) {tag : Span}
    (hruns : openAfter stack (tag :: last.kept) = openAfter next last.kept)
    (hclusters : ∀ later, clustersFrom stack (tag :: later) = clustersFrom next later) :
    Ending.Holds { last with kept := tag :: last.kept } width stack after (tag :: spans) stack
      dropped where
  runs := hruns.trans h.runs
  clusters := by rw [hclusters, hclusters, h.clusters]
  used := by rw [hclusters, h.used]
  fits := h.fits
  full := h.full
  whole _ := rfl
  stops := h.stops

/-- Of a text before spans that are kept whole the last clusters are kept that fit. -/
theorem cons_text (h : last.Holds width stack after spans stack []) {content : Text}
    (hseparable : Cluster.Separable content) {taken rest : List Text} {reached : Nat}
    (hfit : fit width false last.used (Cluster.segment content).reverse = (taken, rest, reached)) :
    Ending.Holds
      ⟨if taken.isEmpty then last.kept else .text taken.reverse.flatten :: last.kept, reached,
        !rest.isEmpty⟩
      width stack after (.text content :: spans) stack (rest.reverse.map (·, stack)) := by
  obtain ⟨happend, hreached, hstop, hbound⟩ := fit_spec hfit
  have hsegment : Cluster.segment content = rest.reverse ++ taken.reverse := by
    rw [← List.reverse_append, happend, List.reverse_reverse]
  have htaken := hseparable _ _ hsegment
  have hkept : clustersFrom stack
      (if taken.isEmpty then last.kept else .text taken.reverse.flatten :: last.kept) =
        taken.reverse.map (·, stack) ++ clustersFrom stack last.kept := by
    split
    · next hnone => simp [List.isEmpty_iff.mp hnone]
    · rw [clustersFrom, htaken]
  constructor
  · dsimp only
    split
    · exact h.runs
    · exact h.runs
  · have hwhole := h.clusters
    rw [List.nil_append] at hwhole
    rw [hkept, clustersFrom, hsegment, hwhole, List.map_append, List.append_assoc]
  · dsimp only
    rw [hkept, clustersWidth_append, ← h.used, clustersWidth_map, hreached, List.map_reverse,
      sumNat_reverse, Nat.add_comm]
  · exact hbound rfl h.fits
  · simp
  · exact fun _ => rfl
  · intro previous hprevious
    rw [List.map_reverse, List.getLast?_reverse, List.head?_map] at hprevious
    obtain ⟨cluster, hcluster, rfl⟩ := Option.map_eq_some_iff.mp hprevious
    exact hstop cluster hcluster

end Ending.Holds

/-- A tag runs from the names open before it to those open behind it. -/
theorem exists_openAfter_of_tag {stack after : List Text} {tag : Span} {later : List Span}
    (htag : tag.isText = false) (h : openAfter stack (tag :: later) = some after) :
    ∃ next, openAfter next later = some after ∧
      ∀ spans, openAfter stack (tag :: spans) = openAfter next spans ∧
        clustersFrom stack (tag :: spans) = clustersFrom next spans := by
  cases tag with
  | text content => cases htag
  | opening name => exact ⟨name :: stack, h, fun _ => ⟨rfl, rfl⟩⟩
  | closing name =>
    cases stack with
    | nil => cases h
    | cons innermost outer =>
      by_cases hname : innermost = name
      · simp only [openAfter, if_pos hname] at h ⊢
        exact ⟨outer, h, fun _ => ⟨rfl, rfl⟩⟩
      · simp [openAfter, hname] at h

/-- A slice at the end holds the last clusters that fit, in their styles. -/
theorem ending_holds (width : Int) {spans : List Span}
    (hseparable : ∀ content, Span.text content ∈ spans → Cluster.Separable content)
    {stack after : List Text} (hrun : openAfter stack spans = some after) :
    ∃ between dropped, (ending width spans).Holds width stack after spans between dropped := by
  induction spans generalizing stack with
  | nil =>
    refine ⟨stack, [], hrun, rfl, rfl, ?_, by simp [ending], fun _ => rfl, by simp⟩
    show ((0 : Nat) : Int) ≤ max width 0
    omega
  | cons span later ih =>
    have hlater := fun content hmem => hseparable content (List.mem_cons_of_mem span hmem)
    cases htag : span.isText with
    | true =>
      cases span with
      | opening name => cases htag
      | closing name => cases htag
      | text content =>
        obtain ⟨between, dropped, hholds⟩ := ih hlater hrun
        cases hfull : (ending width later).full with
        | true =>
          refine ⟨between, clustersFrom stack [.text content] ++ dropped, ?_⟩
          rw [ending_cons_of_full hfull]
          exact hholds.cons_of_full hfull (by simp [clustersFrom])
        | false =>
          obtain rfl := hholds.whole hfull
          obtain rfl : dropped = [] := by simpa [hfull] using hholds.full
          obtain ⟨⟨taken, rest, reached⟩, hfit⟩ : ∃ cut, fit width false (ending width later).used
            (Cluster.segment content).reverse = cut := ⟨_, rfl⟩
          refine ⟨between, rest.reverse.map (·, between), ?_⟩
          rw [ending_cons_text hfull hfit]
          exact hholds.cons_text (hseparable content (List.mem_cons_self ..)) hfit
    | false =>
      obtain ⟨next, hnext, hspan⟩ := exists_openAfter_of_tag htag hrun
      obtain ⟨between, dropped, hholds⟩ := ih hlater hnext
      cases hfull : (ending width later).full with
      | true =>
        rw [ending_cons_of_full hfull]
        refine ⟨between, _, hholds.cons_of_full hfull ?_⟩
        rw [(hspan _).2, (hspan []).2]
        rfl
      | false =>
        obtain rfl := hholds.whole hfull
        rw [ending_cons_tag hfull htag]
        exact ⟨stack, dropped, hholds.cons_tag (hspan _).1 fun later => (hspan later).2⟩

/-! ### Slices -/

/-- The widths of spans add up. -/
@[simp] theorem spansWidth_append (left right : List Span) :
    spansWidth (left ++ right) = spansWidth left + spansWidth right := by
  simp [spansWidth]

/-- Tags take no cells. -/
theorem spansWidth_of_tags {spans : List Span} (h : ∀ span ∈ spans, span.isText = false) :
    spansWidth spans = 0 := by
  induction spans with
  | nil => rfl
  | cons tag later ih =>
    obtain ⟨htag, hlater⟩ := List.forall_mem_cons.mp h
    have hlaterWidth := ih hlater
    rw [spansWidth] at hlaterWidth
    rw [spansWidth, List.map_cons, sumNat_cons, hlaterWidth, Span.content_of_tag htag]
    rfl

/-- Dropping empty pairs takes no cells away. -/
theorem spansWidth_prune (spans : List Span) : spansWidth (prune spans) = spansWidth spans := by
  apply prune_view spansWidth
  · intro spans spans' span h
    rw [spansWidth_append, h, spansWidth_append]
  · intro spans
    rw [spansWidth_append]
    rfl
  · intro spans name
    rw [spansWidth_append, spansWidth_append]
    rfl

/-- Rebalancing leaves the width as it is. -/
theorem spansWidth_rebalance (spans : List Span) :
    spansWidth (rebalance spans) = spansWidth spans := by
  have hopened : spansWidth ((Unpaired.ofSpans spans).closings.map .opening) = 0 :=
    spansWidth_of_tags (by simp [Span.isText])
  have hclosed : spansWidth ((Unpaired.ofSpans spans).openings.map .closing) = 0 :=
    spansWidth_of_tags (by simp [Span.isText])
  rw [rebalance, spansWidth_prune, spansWidth_append, spansWidth_append, hopened, hclosed]
  omega

/-- Whether nothing empty is left in a span list: no text without code points, and no opening tag
with its closing tag right behind it. -/
structure Pruned (spans : List Span) : Prop where
  filled : Span.text [] ∉ spans
  pairs : spans.IsChain fun span next => ∀ name, span = .opening name → next ≠ .closing name

/-- A pruned list stays pruned with a span behind it that closes no pair at once. -/
theorem Pruned.concat {spans : List Span} (h : Pruned spans) (span : Span) (hspan : span ≠ .text [])
    (hlast : ∀ last ∈ spans.getLast?, ∀ name, last = .opening name → span ≠ .closing name) :
    Pruned (spans ++ [span]) := by
  constructor
  · rw [List.mem_append, List.mem_singleton, not_or]
    exact ⟨h.filled, hspan.symm⟩
  · refine List.isChain_append.mpr ⟨h.pairs, List.isChain_singleton _, ?_⟩
    intro last hmem next hnext
    obtain rfl : span = next := by simpa using hnext
    exact hlast last hmem

/-- The first part of a pruned list is pruned. -/
theorem Pruned.of_append {left right : List Span} (h : Pruned (left ++ right)) : Pruned left :=
  ⟨fun hmem => h.filled (List.mem_append_left _ hmem), (List.isChain_append.mp h.pairs).1⟩

/-- A list is pruned once its empty pairs are dropped. -/
theorem pruned_prune (spans : List Span) : Pruned (prune spans) := by
  induction spans using List.reverseRecOn with
  | nil => exact ⟨by simp [prune], List.isChain_nil⟩
  | append_singleton spans span ih =>
    rw [prune_concat]
    cases span with
    | text content =>
      cases content with
      | nil => simpa [pruneStep] using ih
      | cons c rest => simpa [pruneStep] using ih.concat _ (by simp) (by simp)
    | opening name => simpa [pruneStep] using ih.concat _ (by simp) (by simp)
    | closing name =>
      rcases List.eq_nil_or_concat (prune spans) with hnil | ⟨front, last, hfront⟩
      · simp only [hnil, List.reverse_nil, pruneStep, List.reverse_singleton]
        exact ⟨by simp, List.isChain_singleton _⟩
      · rw [List.concat_eq_append] at hfront
        rw [hfront] at ih
        rw [hfront, List.reverse_append, List.reverse_singleton, List.singleton_append]
        cases last with
        | text content => simpa [pruneStep] using ih.concat (.closing name) (by simp) (by simp)
        | closing other => simpa [pruneStep] using ih.concat (.closing name) (by simp) (by simp)
        | opening other =>
          by_cases hname : other = name
          · simpa [pruneStep, hname] using ih.of_append
          · have hlast : ¬ name = other := Ne.symm hname
            simpa [pruneStep, hname] using ih.concat (.closing name) (by simp) (by simp [hlast])

/-- A slice that is well nested, has nothing empty left in it, and takes the cells that it says,
which are no more than `width`. -/
structure IsSlice (slice : Slice) (width : Int) : Prop where
  nested : WellNested slice.spans
  pruned : Pruned slice.spans
  used : slice.used = spansWidth slice.spans
  fits : slice.used ≤ max width 0

/-- Whether a slice shows the first clusters of a span list, as many as fit in `width` cells. -/
structure TakesFirst (spans : List Span) (width : Int) (slice : Slice) : Prop
    extends IsSlice slice width where
  part : styled slice.spans <+: styled spans
  longest : ∃ kept rest, clusters spans = kept ++ rest ∧ styled slice.spans = styledChars kept ∧
    slice.used = clustersWidth kept ∧
    ∀ next ∈ rest.head?, width < (slice.used + Cluster.width next.1 : Nat)

/-- Whether a slice shows the last clusters of a span list, as many as fit in `width` cells. -/
structure TakesLast (spans : List Span) (width : Int) (slice : Slice) : Prop
    extends IsSlice slice width where
  part : styled slice.spans <:+ styled spans
  longest : ∃ rest kept, clusters spans = rest ++ kept ∧ styled slice.spans = styledChars kept ∧
    slice.used = clustersWidth kept ∧
    ∀ previous ∈ rest.getLast?, width < (slice.used + Cluster.width previous.1 : Nat)

/-- What is kept of a run that fits is a slice once it is rebalanced. -/
theorem isSlice_rebalance {before after : List Text} {kept : List Span} {used : Nat} {width : Int}
    (hrun : openAfter before kept = some after) (hused : used = spansWidth kept)
    (hfits : used ≤ max width 0) : IsSlice ⟨rebalance kept, used⟩ width where
  nested := wellNested_iff.mpr (openAfter_rebalance hrun)
  pruned := pruned_prune _
  used := hused.trans (spansWidth_rebalance kept).symm
  fits := hfits

/-- The styled code points of spans are those of their clusters. -/
theorem styled_eq_styledChars (spans : List Span) : styled spans = styledChars (clusters spans) :=
  (styledChars_clustersFrom [] spans).symm

/-- A prefix of well-nested spans shows the first clusters that fit. -/
theorem takesFirst_takePrefix {spans : List Span} (hnested : openAfter [] spans = some [])
    (width : Int) : TakesFirst spans width (takePrefix spans width) := by
  obtain ⟨rest, hclusters, hused, hstop, hfits⟩ := splitFrom_clusters width false 0 spans []
  rw [← openAfter_congr (splitFrom_keeps width false 0 spans).tags] at hnested
  obtain ⟨between, hhead, _⟩ := exists_openAfter_of_append hnested
  rw [Nat.zero_add] at hused
  have htaken := hused.trans (clustersWidth_clustersFrom [] _)
  have hstyled : styled (takePrefix spans width).spans =
      styledChars (clustersFrom [] (split width false spans).head) := by
    rw [styledChars_clustersFrom]
    exact styled_rebalance_of_openAfter hhead
  refine ⟨isSlice_rebalance hhead htaken (hfits rfl (by omega)), ?_, _, rest, hclusters, hstyled,
    hused, hstop⟩
  rw [hstyled, styled_eq_styledChars, clusters, hclusters, styledChars_append]
  exact List.prefix_append _ _

/-- A suffix of well-nested spans shows the last clusters that fit. -/
theorem takesLast_takeSuffix {spans : List Span} (hnested : openAfter [] spans = some [])
    (hseparable : ∀ content, Span.text content ∈ spans → Cluster.Separable content)
    (width : Int) : TakesLast spans width (takeSuffix spans width) := by
  obtain ⟨between, dropped, hholds⟩ := ending_holds width hseparable hnested
  -- The kept spans close every tag that is open before them, and no other.
  obtain ⟨_, outer, hbetween, houter⟩ := Unpaired.openAfter_ofSpans hholds.runs
  obtain ⟨_, rfl⟩ := List.append_eq_nil_iff.mp houter.symm
  rw [List.append_nil] at hbetween
  have htaken := hholds.used.trans (clustersWidth_clustersFrom between _)
  have hstyled : styled (takeSuffix spans width).spans =
      styledChars (clustersFrom between (ending width spans).kept) := by
    rw [styledChars_clustersFrom, hbetween]
    exact styled_rebalance _
  refine ⟨isSlice_rebalance hholds.runs htaken hholds.fits, ?_, dropped, _, hholds.clusters,
    hstyled, hholds.used, hholds.stops⟩
  rw [hstyled, styled_eq_styledChars, clusters, hholds.clusters, styledChars_append]
  exact List.suffix_append _ _

/-- Slices of a text that was read show its first clusters and its last ones, as many as fit. The
last clusters are those of the whole where clusters stay behind a cut. -/
theorem takes_longest {text : Text} {spans : List Span} (hparse : parse text = .ok spans)
    (width : Int) :
    TakesFirst spans width (takePrefix spans width) ∧
      ((∀ content, Span.text content ∈ spans → Cluster.Separable content) →
        TakesLast spans width (takeSuffix spans width)) := by
  obtain ⟨rfl, hnested⟩ := parse_eq_ok_iff.mp hparse
  exact ⟨takesFirst_takePrefix hnested width, fun hseparable =>
    takesLast_takeSuffix hnested hseparable width⟩

/-- An accented letter, a flag and a family of two in tags, of which two with one name lie inside
each other. -/
def familyNote : Text :=
  "[a]e\u0301[a]🇩🇪 [/a]👩‍👧[/a][b][/b]x".toList

/-- The slices of a note with a family of one cluster are the longest of four cells. -/
theorem takes_longest_familyNote :
    ∃ spans, parse familyNote = .ok spans ∧
      (∀ content, Span.text content ∈ spans → Cluster.Separable content) ∧
      TakesFirst spans 4 (takePrefix spans 4) ∧ TakesLast spans 4 (takeSuffix spans 4) := by
  have hparse : parse familyNote = .ok (scan familyNote) := by decide +kernel
  have hmarks : (plainText (scan familyNote)).all (BreakClass.ofChar · != .prependMark) = true := by
    decide +kernel
  have hseparable : ∀ content, Span.text content ∈ scan familyNote →
      Cluster.Separable content := by
    intro content hmem
    refine Cluster.separable_of_forall_ne fun c hc => ?_
    have hplain : c ∈ plainText (scan familyNote) := List.mem_flatMap.mpr ⟨_, hmem, hc⟩
    simpa using List.all_eq_true.mp hmarks c hplain
  obtain ⟨hfirst, hlast⟩ := takes_longest hparse 4
  exact ⟨_, hparse, hseparable, hfirst, hlast hseparable⟩

end TextGrid.Markup
