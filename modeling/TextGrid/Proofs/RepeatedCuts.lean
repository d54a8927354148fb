import TextGrid.Proofs.Fitting
import TextGrid.Proofs.RepairedSlices

/-!
# Repeated cuts

A cut closes the tags that are open where it ends and drops pairs of tags that it leaves empty, so a
second cut reads other spans than the first. All the same it gives what one cut to the smaller of
the two widths gives, with the same tags (`cut_cut`). The reason is that a cut commutes with
pruning: what is dropped before a code point does not depend on what follows it.
-/

namespace TextGrid.Markup

/-! ### Spans that fit -/

/-- The first spans of a list, as long as each fits whole in what the ones before it leave of `room`
cells. -/
def leading : Nat → List Span → List Span
  | _, [] => []
  | room, span :: later =>
    if Text.cells span.content ≤ room then
      span :: leading (room - Text.cells span.content) later
    else []

/-- What leads a list within a room is a prefix of it. -/
theorem leading_isPrefix (room : Nat) (spans : List Span) : leading room spans <+: spans := by
  induction spans generalizing room with
  | nil => exact List.nil_prefix
  | cons span later ih =>
    rw [leading]
    split
    · exact (List.prefix_cons_inj span).mpr (ih _)
    · exact List.nil_prefix

/-- What follows spans is reached only when all of these fit. -/
theorem leading_append (room : Nat) (left right : List Span) :
    leading room (left ++ right) =
      if Text.cells (plainText left) ≤ room then
        left ++ leading (room - Text.cells (plainText left)) right
      else leading room left := by
  induction left generalizing room with
  | nil => simp
  | cons span later ih =>
    rw [List.cons_append, leading, leading, ih, plainText_cons, Text.cells_append]
    by_cases hspan : Text.cells span.content ≤ room
    · rw [if_pos hspan, if_pos hspan]
      by_cases hlater : Text.cells (plainText later) ≤ room - Text.cells span.content
      · rw [if_pos hlater, if_pos (by omega), Nat.sub_sub]
        rfl
      · rw [if_neg hlater, if_neg (by omega)]
    · rw [if_neg hspan, if_neg hspan, if_neg (by omega)]

/-- Spans that fit together are all kept. -/
theorem leading_of_le {room : Nat} {spans : List Span}
    (h : Text.cells (plainText spans) ≤ room) : leading room spans = spans := by
  have happend := leading_append room spans []
  rwa [List.append_nil, if_pos h, leading, List.append_nil] at happend

/-- What fits in two rooms is what fits in the smaller one. -/
theorem leading_leading (room room' : Nat) (spans : List Span) :
    leading room' (leading room spans) = leading (min room room') spans := by
  induction spans generalizing room room' with
  | nil => rfl
  | cons span later ih =>
    rw [leading, leading]
    by_cases hroom : Text.cells span.content ≤ room
    · rw [if_pos hroom, leading]
      by_cases hroom' : Text.cells span.content ≤ room'
      · rw [if_pos hroom', if_pos (by omega), ih, Nat.sub_min_sub_right]
      · rw [if_neg hroom', if_neg (by omega)]
    · rw [if_neg hroom, if_neg (by omega), leading]

/-! ### Cuts of pruned spans -/

/-- Lists that are pruned alike are pruned alike with others behind them. -/
theorem prune_append_congr {left left' : List Span} (h : prune left = prune left')
    (right : List Span) : prune (left ++ right) = prune (left' ++ right) := by
  have hleft := prune_append_prune [] left right
  have hleft' := prune_append_prune [] left' right
  rw [List.nil_append, List.nil_append] at hleft hleft'
  rw [← hleft, h, hleft']

/-- A cut behind pruned spans is, once pruned, the cut behind the spans themselves. -/
theorem prune_leading_prune (room : Nat) (spans : List Span) :
    prune (leading room (prune spans)) = prune (leading room spans) := by
  -- The cells of the spans are part of the view: they decide whether the cut goes on.
  have hview : (prune (leading room (prune spans)), Text.cells (plainText (prune spans))) =
      (prune (leading room spans), Text.cells (plainText spans)) := by
    apply prune_view fun spans => (prune (leading room spans), Text.cells (plainText spans))
    · intro spans spans' span h
      obtain ⟨hkept, hcells⟩ := Prod.mk.inj h
      simp only [leading_append, plainText_append, Text.cells_append, hcells]
      by_cases hfits : Text.cells (plainText spans') ≤ room
      · rw [leading_of_le (by omega), leading_of_le hfits] at hkept
        rw [if_pos hfits, if_pos hfits, prune_append_congr hkept]
      · rw [if_neg hfits, if_neg hfits, hkept]
    · intro spans
      simp only [leading_append, plainText_append]
      by_cases hfits : Text.cells (plainText spans) ≤ room
      · simp [hfits, leading, leading_of_le, Span.content, prune_concat, pruneStep]
      · simp [hfits, Span.content]
    · intro spans name
      rw [List.append_assoc, leading_append, plainText_append]
      by_cases hfits : Text.cells (plainText spans) ≤ room
      · simp [hfits, leading_of_le, Span.content, prune, pruneStep]
      · simp [hfits, Span.content]
  exact (Prod.mk.inj hview).1

/-- Empty pairs may be dropped before the leading spans are taken. -/
theorem rebalance_leading_prune (room : Nat) (spans : List Span) :
    rebalance (leading room (prune spans)) = rebalance (leading room spans) := by
  rw [← rebalance_prune, prune_leading_prune, rebalance_prune]

/-- Spans that need no tags before them are closed and pruned. -/
theorem rebalance_of_openAfter {spans : List Span} {after : List Text}
    (h : openAfter [] spans = some after) :
    rebalance spans = prune (spans ++ after.map .closing) := by
  obtain ⟨_, outer, hbefore, hafter⟩ := Unpaired.openAfter_ofSpans h
  obtain ⟨hclosings, rfl⟩ := List.append_eq_nil_iff.mp hbefore.symm
  rw [List.reverse_eq_nil_iff] at hclosings
  rw [List.append_nil] at hafter
  rw [rebalance, hclosings, hafter, List.map_nil, List.nil_append]

/-- Tags that close what spans leave open do not change what a cut of these shows. -/
theorem rebalance_leading_closed {spans : List Span} {after : List Text}
    (h : openAfter [] spans = some after) (room : Nat) :
    rebalance (leading room (spans ++ after.map .closing)) = rebalance (leading room spans) := by
  rw [leading_append]
  by_cases hfits : Text.cells (plainText spans) ≤ room
  · have hclosed : openAfter [] (spans ++ after.map .closing) = some [] := by
      have hclose := openAfter_map_closing after []
      rw [List.append_nil] at hclose
      rw [openAfter_append, h, Option.bind_some, hclose]
    have htags : leading (room - Text.cells (plainText spans)) (after.map .closing) =
        after.map .closing := leading_of_le (by simp)
    rw [if_pos hfits, htags, leading_of_le hfits, rebalance_of_nested hclosed,
      rebalance_of_openAfter h]
  · rw [if_neg hfits]

/-- A cut of a rebalanced cut, once rebalanced, is the cut to the smaller room. -/
theorem rebalance_leading_rebalance {spans : List Span} (hnested : openAfter [] spans = some [])
    (room room' : Nat) :
    rebalance (leading room' (rebalance (leading room spans))) =
      rebalance (leading (min room room') spans) := by
  obtain ⟨rest, hrest⟩ := leading_isPrefix room spans
  rw [← hrest] at hnested
  obtain ⟨after, hkept, _⟩ := exists_openAfter_of_append hnested
  calc
    rebalance (leading room' (rebalance (leading room spans))) =
        rebalance (leading room' (prune (leading room spans ++ after.map Span.closing))) := by
      rw [rebalance_of_openAfter hkept]
    _ = rebalance (leading room' (leading room spans ++ after.map Span.closing)) :=
      rebalance_leading_prune room' _
    _ = rebalance (leading room' (leading room spans)) := rebalance_leading_closed hkept room'
    _ = rebalance (leading (min room room') spans) := by rw [leading_leading]

/-! ### Code points one by one -/

/-- The tags of a span list and its code points, one by one. -/
abbrev points (spans : List Span) : List Span :=
  atoms (fun _ => true) spans

/-- The points of a first span come first. -/
theorem points_cons (span : Span) (spans : List Span) :
    points (span :: spans) = span.atoms (fun _ => true) ++ points spans :=
  atoms_cons _ span spans

/-- The points of some spans come before those of the spans behind them. -/
theorem points_append (left right : List Span) :
    points (left ++ right) = points left ++ points right :=
  atoms_append _ left right

/-- The points of a text are its code points. -/
theorem points_text (content : Text) : points [.text content] = content.map (.text [·]) := by
  simp [Span.atoms]

/-- A tag is a point. -/
theorem points_tag {tag : Span} (h : tag.isText = false) : points [tag] = [tag] := by
  cases tag with
  | text content => cases h
  | opening name => rfl
  | closing name => rfl

/-- Tags are their own points. -/
theorem points_of_tags {spans : List Span} (h : ∀ span ∈ spans, span.isText = false) :
    points spans = spans := by
  induction spans with
  | nil => rfl
  | cons tag later ih =>
    obtain ⟨htag, hlater⟩ := List.forall_mem_cons.mp h
    rw [← List.singleton_append, points_append, points_tag htag, ih hlater]

/-- The points of spans have their text. -/
theorem plainText_points (spans : List Span) : plainText (points spans) = plainText spans := by
  rw [plainText_atoms, List.filter_true]

/-- The points of spans are written as the spans are. -/
theorem join_points (spans : List Span) : join (points spans) = join spans := by
  induction spans with
  | nil => rfl
  | cons span later ih =>
    rw [points_cons, join_append, ih, join_cons]
    cases span with
    | text content => simp [Span.atoms, join, Span.print, List.flatMap_map]
    | opening name => simp [Span.atoms]
    | closing name => simp [Span.atoms]

/-- The points of spans leave the same tags without partners. -/
theorem ofSpans_points (spans : List Span) :
    Unpaired.ofSpans (points spans) = Unpaired.ofSpans spans := by
  induction spans using List.reverseRecOn with
  | nil => rfl
  | append_singleton spans span ih =>
    rw [points_append, Unpaired.ofSpans_concat, ← ih]
    cases span with
    | text content =>
      rw [points_text, Unpaired.step]
      induction content using List.reverseRecOn with
      | nil => simp
      | append_singleton rest c hrest =>
        rw [List.map_append, ← List.append_assoc, List.map_singleton, Unpaired.ofSpans_concat,
          Unpaired.step, hrest]
    | opening name => rw [points_tag rfl, Unpaired.ofSpans_concat]
    | closing name => rw [points_tag rfl, Unpaired.ofSpans_concat]

/-- A text that holds something is kept when pruned, as are its code points. -/
theorem foldl_pruneStep_points (kept : List Span) (content : Text) :
    (points [.text content]).foldl pruneStep kept = (points [.text content]).reverse ++ kept := by
  rw [points_text]
  induction content generalizing kept with
  | nil => rfl
  | cons c rest ih => simp [pruneStep, ih]

/-- Pruning does the same when the code points are taken one by one. -/
theorem points_prune (spans : List Span) : points (prune spans) = prune (points spans) := by
  induction spans using List.reverseRecOn with
  | nil => rfl
  | append_singleton spans span ih =>
    have hconcat : prune (points (spans ++ [span])) =
        ((points [span]).foldl pruneStep (points (prune spans)).reverse).reverse := by
      rw [points_append, ih, prune, List.foldl_append, prune, List.reverse_reverse]
    have hfilled := (pruned_prune spans).filled
    rw [hconcat, prune_concat]
    generalize prune spans = kept at hfilled
    cases span with
    | text content =>
      rw [foldl_pruneStep_points]
      cases content with
      | nil => simp [pruneStep, Span.atoms]
      | cons c rest => simp [pruneStep]
    | opening name => simp [pruneStep, Span.atoms]
    | closing name =>
      rcases List.eq_nil_or_concat kept with rfl | ⟨front, last, rfl⟩
      · simp [pruneStep, Span.atoms]
      · rw [List.concat_eq_append] at hfilled ⊢
        cases last with
        | text content =>
          -- The last code point of the text stands where the whole text stood.
          rcases List.eq_nil_or_concat content with rfl | ⟨rest, c, rfl⟩
          · simp at hfilled
          · simp [pruneStep, Span.atoms]
        | closing other => simp [pruneStep, Span.atoms]
        | opening other =>
          by_cases hname : other = name
          · simp [pruneStep, Span.atoms, hname]
          · simp [pruneStep, Span.atoms, hname]

/-- Rebalancing may be done point by point. -/
theorem points_rebalance (spans : List Span) :
    points (rebalance spans) = rebalance (points spans) := by
  have hopened : points ((Unpaired.ofSpans spans).closings.map .opening) =
      (Unpaired.ofSpans spans).closings.map .opening := points_of_tags (by simp [Span.isText])
  have hclosed : points ((Unpaired.ofSpans spans).openings.map .closing) =
      (Unpaired.ofSpans spans).openings.map .closing := points_of_tags (by simp [Span.isText])
  rw [rebalance, points_prune, points_append, points_append, hopened, hclosed, rebalance,
    ofSpans_points]

/-- Of a text the code points are kept that fit. -/
theorem leading_points_text (room : Nat) (content : Text) :
    leading room (points [.text content]) = points [.text (Text.fitting false room content)] := by
  rw [points_text, points_text]
  induction content generalizing room with
  | nil => rfl
  | cons c rest ih =>
    have hcells : Text.cells (Span.text [c]).content = Cluster.charWidth c := by
      simp [Span.content]
    rw [List.map_cons, leading, hcells, Text.fitting]
    by_cases hfits : Cluster.charWidth c ≤ room
    · have hroom : (room : Int) - Cluster.charWidth c = (room - Cluster.charWidth c : Nat) := by
        omega
      rw [if_pos hfits, if_neg (by omega), List.map_cons, ih, hroom]
    · rw [if_neg hfits, if_pos ⟨by omega, rfl⟩, List.map_nil]

/-- The head of a cut of ordinary spans holds the first tags and code points that fit. -/
theorem points_head_splitFrom {width : Int} {used : Nat} (hused : used ≤ width) {spans : List Span}
    (h : Text.IsOrdinary (plainText spans)) :
    points (splitFrom width false used spans).head =
      leading (width - used).toNat (points spans) := by
  induction spans generalizing used with
  | nil => rfl
  | cons span later ih =>
    rw [plainText_cons, Text.isOrdinary_append] at h
    rw [← List.singleton_append, points_append, leading_append, plainText_points]
    cases span with
    | opening name =>
      have hlater := ih hused h.2
      simp [splitFrom, Span.content, Span.atoms, hlater]
    | closing name =>
      have hlater := ih hused h.2
      simp [splitFrom, Span.content, Span.atoms, hlater]
    | text content =>
      have hcontent : Text.IsOrdinary content := h.1
      have hroom : ((width - used).toNat : Int) = width - used := by omega
      have hplain : plainText [.text content] = content := by simp [Span.content]
      have hnil := drop_fitting_eq_nil_iff false (width - used) content
      rw [hplain, List.singleton_append, splitFrom, Bool.false_and,
        Cluster.segment_of_isOrdinary hcontent, fit_map_singleton]
      by_cases hfits : Text.cells content ≤ (width - used).toNat
      · have hall : Text.fitting false (width - used) content = content :=
          Text.fitting_of_le false (by omega)
        have hnext : ((used + Text.cells content : Nat) : Int) ≤ width := by omega
        have hlater := ih hnext h.2
        have hrest : (width - (used + Text.cells content : Nat)).toNat =
            (width - used).toNat - Text.cells content := by
          omega
        rw [if_pos hfits, hall, List.drop_length, List.map_nil]
        dsimp only
        rw [← List.singleton_append, points_append, hlater, hrest]
      · have hcut : Text.fitting false (width - used) content ≠ content := by
          intro hall
          have hle := Text.cells_fitting_le (by omega : 0 ≤ width - used) content
          rw [hall] at hle
          omega
        have hsome := mt hnil.mp hcut
        rw [if_neg hfits, leading_points_text, hroom]
        generalize Text.fitting false (width - used) content = kept at hsome ⊢
        obtain ⟨c, others, hrest⟩ := List.exists_cons_of_ne_nil hsome
        rw [hrest, List.map_cons]
        dsimp only
        rw [flatten_map_singleton]
        split
        · next hnone => simp [List.isEmpty_iff.mp hnone, Span.atoms]
        · rfl

/-- A split of ordinary text takes the points that lead it. -/
theorem points_head_split {spans : List Span} (h : Text.IsOrdinary (plainText spans))
    (width : Int) :
    points (split (max width 0) false spans).head = leading width.toNat (points spans) := by
  have hroom : (max width 0 - (0 : Nat)).toNat = width.toNat := by omega
  rw [split, points_head_splitFrom (by omega) h, hroom]

/-! ### Cuts of cuts -/

/-- A slice at the start of ordinary text is made of the points that lead it. -/
theorem points_takePrefix {spans : List Span} (h : Text.IsOrdinary (plainText spans))
    (width : Int) :
    points (takePrefix spans (max width 0)).spans =
      rebalance (leading width.toNat (points spans)) := by
  rw [takePrefix, points_rebalance, points_head_split h]

/-- A cut of an ordinary text is written as the first tags and code points that fit, rebalanced. -/
theorem cut_eq {text : Text} {spans : List Span} (hparse : parse text = .ok spans)
    (hordinary : Text.IsOrdinary (plainText spans)) (width : Int) :
    cut text width = .ok (join (rebalance (leading width.toNat (points spans)))) := by
  rw [cut, hparse, ← points_takePrefix hordinary, join_points]
  rfl

/-- A cut of legible ordinary text is read as the tags and code points that it is written as. -/
theorem exists_parse_cut {text : Text} {spans : List Span} (hparse : parse text = .ok spans)
    (h : Legible '[' spans) (hordinary : Text.IsOrdinary (plainText spans)) (width : Int) :
    ∃ kept found, cut text width = .ok kept ∧ parse kept = .ok found ∧
      Text.IsOrdinary (plainText found) ∧
      points found = rebalance (leading width.toNat (points spans)) := by
  have hlegible := legible_takePrefix h (max width 0)
  obtain ⟨hnest, hplain⟩ := scan_join (Or.inl rfl) hlegible.named hlegible.lacks
  have hfound := atoms_scan_join (fun _ => true) (Or.inl rfl) hlegible.named hlegible.lacks
  have hsubset := (split_head_subset (max width 0) false spans).2
  have hcut : cut text width = .ok (join (takePrefix spans (max width 0)).spans) := by
    rw [cut, hparse]
    rfl
  refine ⟨_, scan (join (takePrefix spans (max width 0)).spans), hcut, ?_, ?_, ?_⟩
  · exact parse_eq_ok_iff.mpr ⟨rfl, (hnest []).trans hlegible.nested⟩
  · rw [hplain, takePrefix, plainText_rebalance]
    exact hordinary.subset hsubset
  · exact hfound.trans (points_takePrefix hordinary width)

/-- A cut of a cut is the cut to the smaller of the two widths, tags included. -/
theorem cut_cut {text plain : Text} (h : Draws text plain) (width width' : Int) :
    ∃ once twice, cut text width = .ok once ∧ cut once width' = .ok twice ∧
      cut text (min width width') = .ok twice := by
  obtain ⟨spans, hparse, hlegible, _, rfl⟩ := h.shows.exists_parse
  obtain ⟨once, found, honce, hfound, hordinary, hpoints⟩ :=
    exists_parse_cut hparse hlegible h.ordinary width
  have hnested : openAfter [] (points spans) = some [] :=
    (openAfter_congr (tags_atoms _ spans)).trans hlegible.nested
  have hroom : (min width width').toNat = min width.toNat width'.toNat := by omega
  refine ⟨once, _, honce, cut_eq hfound hordinary width', ?_⟩
  rw [cut_eq hparse h.ordinary, hpoints, rebalance_leading_rebalance hnested, hroom]

/-- Wide glyphs in tags, of which one pair is left empty by a cut. -/
def wideNote : Text :=
  "[a]日[b]x[/b][c]本[/c][/a]y".toList

/-- A note with wide glyphs is cut twice as it is cut at once. -/
theorem cut_cut_wideNote :
    Draws wideNote "日x本y".toList ∧
      ∃ once twice, cut wideNote 4 = .ok once ∧ cut once 2 = .ok twice ∧
        cut wideNote (min 4 2) = .ok twice := by
  have hdraws : Draws wideNote "日x本y".toList := by decide +kernel
  exact ⟨hdraws, cut_cut hdraws 4 2⟩

example : cut wideNote 4 = .ok "[a]日[b]x[/b][/a]".toList ∧
    cut "[a]日[b]x[/b][/a]".toList 2 = .ok "[a]日[/a]".toList := by
  decide +kernel

end TextGrid.Markup
