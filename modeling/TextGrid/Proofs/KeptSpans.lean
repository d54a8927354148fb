import TextGrid.Markup.Wrap
import TextGrid.Proofs.StyledText

/-!
# What cutting and wrapping keep

However a span list is cut, broken and packed, all of its tags and code points stay in order, and no
code point is added but the space between words. So each slice runs through between the tags open
before and after it, and rebalancing it gives markup that lacks the brackets that the whole lacks.
-/

namespace TextGrid.Markup

/-- Whether spans have the tags of others and their code points but for blanks, in the same order,
no code point that the others lack but for spaces, and no empty text if the others have none. -/
structure Keeps (part whole : List Span) : Prop where
  marks : marks part = marks whole
  text : ∀ c ∈ plainText part, c = ' ' ∨ c ∈ plainText whole
  filled : Span.text [] ∉ whole → Span.text [] ∉ part

namespace Keeps

variable {part part' whole whole' : List Span}

/-- What keeps the marks keeps the tags. -/
theorem tags (h : Keeps part whole) : Markup.tags part = Markup.tags whole := by
  have hsame := congrArg Markup.tags h.marks
  rwa [tags_atoms, tags_atoms] at hsame

/-- Spans keep what they are. -/
theorem refl (spans : List Span) : Keeps spans spans :=
  ⟨rfl, fun _ hc => Or.inr hc, id⟩

/-- What is kept of something kept is kept of the whole. -/
theorem trans {middle : List Span} (h : Keeps part middle) (h' : Keeps middle whole) :
    Keeps part whole := by
  refine ⟨h.marks.trans h'.marks, fun c hc => ?_, fun hwhole => h.filled (h'.filled hwhole)⟩
  rcases h.text c hc with hspace | hmiddle
  · exact Or.inl hspace
  · exact h'.text c hmiddle

/-- What is kept of two lists is kept of both together. -/
theorem append (h : Keeps part whole) (h' : Keeps part' whole') :
    Keeps (part ++ part') (whole ++ whole') := by
  refine ⟨by simp [h.marks, h'.marks], fun c hc => ?_, fun hwhole => ?_⟩
  · rw [plainText_append, List.mem_append] at hc ⊢
    rcases hc with hc | hc
    · exact (h.text c hc).imp_right Or.inl
    · exact (h'.text c hc).imp_right Or.inr
  · rw [List.mem_append, not_or] at hwhole ⊢
    exact ⟨h.filled hwhole.1, h'.filled hwhole.2⟩

/-- A space between spans is none of their code points. -/
theorem cons_space (h : Keeps part whole) : Keeps (.text [' '] :: part) whole := by
  refine ⟨h.marks, fun c hc => ?_, fun hwhole => ?_⟩
  · rw [plainText_cons, List.mem_append] at hc
    rcases hc with hc | hc
    · exact Or.inl (List.mem_singleton.mp hc)
    · exact h.text c hc
  · rw [List.mem_cons, not_or]
    exact ⟨by simp, h.filled hwhole⟩

/-- A span before others stays before what is kept of them. -/
theorem cons (span : Span) (h : Keeps part whole) : Keeps (span :: part) (span :: whole) :=
  (refl [span]).append h

/-- Kept spans lack the brackets that the others lack. -/
theorem lacks {bracket : Char} (h : Keeps part whole) (hbracket : IsBracket bracket)
    (hlacks : bracket ∉ plainText whole) : bracket ∉ plainText part := by
  intro hmem
  rcases h.text bracket hmem with hspace | hmem
  · exact hbracket.ne_space hspace
  · exact hlacks hmem

/-- Each of the lines that keep others lacks the brackets that these lack. -/
theorem lacks_of_mem {bracket : Char} {lines : List (List Span)} (h : Keeps lines.flatten whole)
    (hbracket : IsBracket bracket) (hlacks : bracket ∉ plainText whole) {line : List Span}
    (hline : line ∈ lines) : bracket ∉ plainText line := by
  have hlines := h.lacks hbracket hlacks
  rw [plainText_flatten] at hlines
  intro hmem
  exact hlines (List.mem_flatten.mpr ⟨_, List.mem_map_of_mem hline, hmem⟩)

/-- A text that is cut in two keeps its code points; the first part may be empty and is left out
then. -/
theorem of_cut {left right content : Text} (hwhole : left ++ right = content) (hright : right ≠ [])
    (later : List Span) :
    Keeps ((if left.isEmpty then [] else [.text left]) ++ .text right :: later)
      (.text content :: later) := by
  by_cases hleft : left = []
  · rw [hleft, List.nil_append] at hwhole
    simpa [hleft, hwhole] using refl (.text content :: later)
  · have hsome : left.isEmpty = false := by simpa using hleft
    rw [hsome, if_neg Bool.false_ne_true]
    refine ⟨?_, fun c hc => Or.inr ?_, fun hfilled => ?_⟩
    · simp [← hwhole, atoms_text_append]
    · rw [← hwhole]
      simpa [Span.content] using hc
    · simp only [List.mem_cons, not_or] at hfilled
      simp [Ne.symm hleft, Ne.symm hright, hfilled.2]

end Keeps

/-! ### Cuts -/

/-- A cut loses no text. -/
theorem plainText_splitFrom (width : Int) (force : Bool) (used : Nat) (spans : List Span) :
    let cut := splitFrom width force used spans
    plainText cut.head ++ plainText cut.tail = plainText spans := by
  intro cut
  induction spans generalizing used with
  | nil => rfl
  | cons span later ih =>
    cases span with
    | text content =>
      have happend := fit_append width (force && used == 0) used (Cluster.segment content)
      simp only [cut, splitFrom]
      split
      · next reached _ => simpa [Span.content] using ih reached
      · next kept rest reached _ hfit =>
        rw [hfit] at happend
        have hwhole : kept.flatten ++ rest.flatten = content := by
          rw [← List.flatten_append, happend, Cluster.flatten_segment]
        have hhead : plainText (if kept.flatten.isEmpty then [] else [Span.text kept.flatten]) =
            kept.flatten := by
          split
          · next hnone => simpa using hnone
          · simp [Span.content]
        dsimp only
        rw [hhead, plainText_cons, plainText_cons, ← List.append_assoc]
        simp only [Span.content]
        rw [hwhole]
    | opening name => simpa [cut, splitFrom, Span.content] using ih used
    | closing name => simpa [cut, splitFrom, Span.content] using ih used

/-- The two sides of a cut keep what was cut. -/
theorem splitFrom_keeps (width : Int) (force : Bool) (used : Nat) (spans : List Span) :
    let cut := splitFrom width force used spans
    Keeps (cut.head ++ cut.tail) spans := by
  intro cut
  induction spans generalizing used with
  | nil => exact Keeps.refl []
  | cons span later ih =>
    cases span with
    | text content =>
      have happend := fit_append width (force && used == 0) used (Cluster.segment content)
      simp only [cut, splitFrom]
      split
      · next reached _ => exact (ih reached).cons (.text content)
      · next kept rest reached hrest hfit =>
        rw [hfit] at happend
        have hwhole : kept.flatten ++ rest.flatten = content := by
          rw [← List.flatten_append, happend, Cluster.flatten_segment]
        refine Keeps.of_cut hwhole ?_ later
        intro hnone
        obtain ⟨cluster, others, rfl⟩ := List.exists_cons_of_ne_nil hrest
        have hmem : cluster ∈ Cluster.segment content := by
          rw [← happend]
          simp
        have hcluster := List.flatten_eq_nil_iff.mp hnone cluster (List.mem_cons_self ..)
        exact Cluster.ne_nil_of_mem_segment hmem hcluster
    | opening name => exact (ih used).cons (.opening name)
    | closing name => exact (ih used).cons (.closing name)

/-- The head of a cut has no tags and no code points but those of the whole. -/
theorem split_head_subset (width : Int) (force : Bool) (spans : List Span) :
    tags (split width force spans).head ⊆ tags spans ∧
      plainText (split width force spans).head ⊆ plainText spans := by
  have htags := (splitFrom_keeps width force 0 spans).tags
  have hplain := plainText_splitFrom width force 0 spans
  constructor
  · rw [← htags, tags_append]
    exact List.subset_append_left _ _
  · rw [← hplain]
    exact List.subset_append_left _ _

/-- Nothing more is kept before a cluster that was left out. -/
theorem ending_cons_of_full {width : Int} {later : List Span}
    (hfull : (ending width later).full = true) (span : Span) :
    ending width (span :: later) = ending width later := by
  cases span <;> simp only [ending, hfull, if_true]

/-- A tag before spans that are kept whole is kept. -/
theorem ending_cons_tag {width : Int} {later : List Span}
    (hfull : (ending width later).full = false) {tag : Span} (htag : tag.isText = false) :
    ending width (tag :: later) =
      { ending width later with kept := tag :: (ending width later).kept } := by
  cases tag with
  | text content => cases htag
  | opening name => simp only [ending, hfull, Bool.false_eq_true, if_false]
  | closing name => simp only [ending, hfull, Bool.false_eq_true, if_false]

/-- Of a text before spans that are kept whole the last clusters are kept that fit. -/
theorem ending_cons_text {width : Int} {later : List Span}
    (hfull : (ending width later).full = false) {content : Text} {taken rest : List Text}
    {reached : Nat} (hfit : fit width false (ending width later).used
      (Cluster.segment content).reverse = (taken, rest, reached)) :
    ending width (.text content :: later) =
      ⟨if taken.isEmpty then (ending width later).kept
        else .text taken.reverse.flatten :: (ending width later).kept, reached, !rest.isEmpty⟩ := by
  simp only [ending, hfull, Bool.false_eq_true, if_false, hfit]

/-- What is kept at the end has the last tags and none but code points of the whole, and all tags if
nothing was left out. -/
theorem ending_part (width : Int) (spans : List Span) :
    (∃ dropped, tags spans = dropped ++ tags (ending width spans).kept ∧
      ((ending width spans).full = false → dropped = [])) ∧
      plainText (ending width spans).kept ⊆ plainText spans := by
  induction spans with
  | nil => exact ⟨⟨[], rfl, fun _ => rfl⟩, List.Subset.refl _⟩
  | cons span later ih =>
    obtain ⟨⟨dropped, htags, hdropped⟩, htext⟩ := ih
    have hlater : plainText later ⊆ plainText (span :: later) := by
      rw [plainText_cons]
      exact List.subset_append_right _ _
    cases hfull : (ending width later).full with
    | true =>
      rw [ending_cons_of_full hfull, hfull]
      refine ⟨⟨tags [span] ++ dropped, ?_, by simp⟩, List.Subset.trans htext hlater⟩
      rw [List.append_assoc, ← htags, ← tags_append, List.singleton_append]
    | false =>
      rw [hdropped hfull, List.nil_append] at htags
      cases span with
      | opening name =>
        rw [ending_cons_tag hfull rfl]
        exact ⟨⟨[], by simp [htags], fun _ => rfl⟩, by simpa [Span.content] using htext⟩
      | closing name =>
        rw [ending_cons_tag hfull rfl]
        exact ⟨⟨[], by simp [htags], fun _ => rfl⟩, by simpa [Span.content] using htext⟩
      | text content =>
        have happend := fit_append width false (ending width later).used
          (Cluster.segment content).reverse
        obtain ⟨⟨taken, rest, reached⟩, hfit⟩ : ∃ cut, fit width false (ending width later).used
          (Cluster.segment content).reverse = cut := ⟨_, rfl⟩
        rw [hfit] at happend
        rw [ending_cons_text hfull hfit]
        have hcontent : taken.reverse.flatten ⊆ content := by
          have hwhole := congrArg (fun clusters => clusters.reverse.flatten) happend
          simp only [List.reverse_append, List.flatten_append, List.reverse_reverse,
            Cluster.flatten_segment] at hwhole
          rw [← hwhole]
          exact List.subset_append_right _ _
        dsimp only
        split
        · exact ⟨⟨[], by simp [htags], fun _ => rfl⟩, List.Subset.trans htext hlater⟩
        · refine ⟨⟨[], by simp [htags], fun _ => rfl⟩, ?_⟩
          rw [plainText_cons, plainText_cons]
          exact List.append_subset.mpr ⟨List.Subset.trans hcontent (List.subset_append_left _ _),
            List.Subset.trans htext (List.subset_append_right _ _)⟩

/-! ### Slices of legible spans -/

section Slices

variable {bracket : Char} {spans : List Span} (h : Legible bracket spans)

include h

/-- A part of legible spans that runs through, with no more tags than they have, is legible once it
is rebalanced. -/
theorem Legible.rebalance_part {part : List Span} {before after : List Text}
    (htags : tags part ⊆ tags spans) (hplain : plainText part ⊆ plainText spans)
    (hrun : openAfter before part = some after) : Legible bracket (rebalance part) :=
  legible_rebalance (isNamed_of_tags_subset h.named htags) (fun hmem => h.lacks (hplain hmem)) hrun

/-- A slice at the start of legible spans is legible. -/
theorem legible_takePrefix (width : Int) : Legible bracket (takePrefix spans width).spans := by
  obtain ⟨htags, hplain⟩ := split_head_subset width false spans
  have hnested := h.nested
  rw [← openAfter_congr (splitFrom_keeps width false 0 spans).tags] at hnested
  obtain ⟨between, hrun, _⟩ := exists_openAfter_of_append hnested
  exact h.rebalance_part htags hplain hrun

/-- A slice at the end of legible spans is legible. -/
theorem legible_takeSuffix (width : Int) : Legible bracket (takeSuffix spans width).spans := by
  obtain ⟨⟨dropped, htags, _⟩, hplain⟩ := ending_part width spans
  have hnested := h.nested
  rw [← openAfter_tags, htags] at hnested
  obtain ⟨between, _, hrun⟩ := exists_openAfter_of_append hnested
  rw [openAfter_tags] at hrun
  refine h.rebalance_part ?_ hplain hrun
  rw [htags]
  exact List.subset_append_right _ _

variable (hbracket : IsBracket bracket)

include hbracket

/-- A slice at the start of legible spans shows what a split takes of their text. -/
theorem Legible.takePrefix_showsWithout (width : Int) :
    ShowsWithout bracket (join (takePrefix spans width).spans)
      (plainText (split width false spans).head) := by
  simpa [takePrefix] using (legible_takePrefix h width).showsWithout hbracket

/-- A slice at the end of legible spans shows what is kept of their text there. -/
theorem Legible.takeSuffix_showsWithout (width : Int) :
    ShowsWithout bracket (join (takeSuffix spans width).spans)
      (plainText (ending width spans).kept) := by
  simpa [takeSuffix] using (legible_takeSuffix h width).showsWithout hbracket

end Slices

/-! ### Lines -/

/-- A broken word keeps its spans, on the lines it fills and in what is left of it. -/
theorem breakWord_keeps (room laterRoom : Nat) (spans : List Span) :
    let broken := breakWord room laterRoom spans
    Keeps (broken.lines.flatten ++ broken.rest) spans := by
  induction room, spans using breakWord.induct laterRoom with
  | case1 room spans hfits =>
    rw [breakWord, dif_pos hfits]
    exact Keeps.refl spans
  | case2 room spans hfits parts ih =>
    rw [breakWord, dif_neg hfits]
    simp only [List.flatten_cons, List.append_assoc]
    exact ((Keeps.refl parts.head).append ih).trans (splitFrom_keeps room true 0 spans)

namespace Packer

/-- All spans packed so far, in order. -/
def spans (packer : Packer) : List Span :=
  packer.lines.reverse.flatten ++ packer.current

/-- A word that starts a line is kept behind what was packed. -/
theorem startLine_keeps (packer : Packer) (laterRoom : Nat) (word : List Span) :
    Keeps (packer.startLine laterRoom word).spans (packer.spans ++ word) := by
  have hbroken := breakWord_keeps packer.room laterRoom (packer.current ++ word)
  have hlines := (Keeps.refl packer.lines.reverse.flatten).append hbroken
  simpa [startLine, spans] using hlines

/-- A word that is packed is kept behind what was packed. -/
theorem addWord_keeps (packer : Packer) (laterRoom : Nat) (word : List Span) :
    Keeps (packer.addWord laterRoom word).spans (packer.spans ++ word) := by
  unfold addWord
  split
  · dsimp only
    split
    · have hspaced := (Keeps.refl packer.spans).append (Keeps.refl word).cons_space
      simpa [spans] using hspaced
    · have hstart := startLine_keeps ⟨packer.current :: packer.lines, [], 0, laterRoom⟩ laterRoom
        word
      simpa [spans] using hstart
  · exact startLine_keeps packer laterRoom word

/-- Words that are packed are kept behind what was packed. -/
theorem foldl_addWord_keeps (packer : Packer) (laterRoom : Nat) (words : List (List Span)) :
    Keeps (words.foldl (addWord laterRoom) packer).spans (packer.spans ++ words.flatten) := by
  induction words generalizing packer with
  | nil => simpa using Keeps.refl packer.spans
  | cons word later ih =>
    have hword := (addWord_keeps packer laterRoom word).append (Keeps.refl later.flatten)
    rw [List.foldl_cons, List.flatten_cons, ← List.append_assoc]
    exact (ih (packer.addWord laterRoom word)).trans hword

/-- The lines of a packer hold everything that was packed. -/
theorem flatten_finish (packer : Packer) : packer.finish.flatten = packer.spans := by
  obtain ⟨lines, current, used, room⟩ := packer
  unfold finish
  by_cases hempty : current.isEmpty = true
  · rw [if_pos hempty]
    simp [spans, List.isEmpty_iff.mp hempty]
  · rw [if_neg hempty]
    cases lines with
    | nil => simp [spans]
    | cons last before =>
      dsimp only
      split <;> simp [spans]

end Packer

/-- Words in a row keep their tags and their text, with spaces between words. -/
theorem intercalate_keeps (words : List (List Span)) :
    Keeps (List.intercalate [.text [' ']] words) words.flatten := by
  induction words with
  | nil => exact Keeps.refl []
  | cons word later ih =>
    cases later with
    | nil => simpa [List.intercalate] using Keeps.refl word
    | cons next others =>
      rw [List.intercalate_cons_cons, List.flatten_cons, List.append_assoc]
      exact (Keeps.refl word).append ih.cons_space

/-- Words packed onto lines keep their tags and their text, with spaces between words. -/
theorem pack_keeps (room laterRoom : Nat) (words : List (List Span)) :
    Keeps (pack room laterRoom words).flatten words.flatten := by
  rw [pack, Packer.flatten_finish]
  exact Packer.foldl_addWord_keeps ⟨[], [], 0, room⟩ laterRoom words

/-! ### Lines that are well nested on their own -/

/-- Whether spans are a line behind opening tags: they have its text, their tags have names, and
they run on their own. -/
structure Reopens (full line : List Span) : Prop where
  plain : plainText full = plainText line
  named : ∀ span ∈ full, span.isNamed = true
  runs : ∃ after, openAfter [] full = some after

/-- A line behind the opened names of the stack that it runs from runs on its own, with the same
names left open. -/
theorem reopened_spec {stack after : List Text} {line : List Span}
    (hstack : ∀ name ∈ stack, isTagName name = true) (hnamed : ∀ span ∈ line, span.isNamed = true)
    (hrun : openAfter stack line = some after) :
    Reopens (stack.reverse.map Span.opening ++ line) line ∧
      openAfter [] (stack.reverse.map Span.opening ++ line) = some after := by
  have hfull : openAfter [] (stack.reverse.map Span.opening ++ line) = some after := by
    rw [openAfter_append, openAfter_map_opening, Option.bind_some, List.reverse_reverse,
      List.append_nil, hrun]
  refine ⟨⟨by rw [plainText_append, plainText_map_opening, List.nil_append], ?_, _, hfull⟩, hfull⟩
  refine List.forall_mem_append.mpr ⟨?_, hnamed⟩
  intro span hspan
  obtain ⟨name, hname, rfl⟩ := List.mem_map.mp hspan
  exact hstack name (List.mem_reverse.mp hname)

/-- The lines of a slice that runs through are rebalanced behind the tags that the lines before them
leave open, and there they look as they do within the slice. -/
theorem balanceLines_spec {stack after : List Text} {lines : List (List Span)}
    (hstack : ∀ name ∈ stack, isTagName name = true)
    (hnamed : ∀ span ∈ lines.flatten, span.isNamed = true)
    (hrun : openAfter stack lines.flatten = some after) :
    ∃ fulls, balanceLines stack.reverse lines = fulls.map (fun full => join (rebalance full)) ∧
      List.Forall₂ Reopens fulls lines ∧
      fulls.flatMap styled = styledFrom stack lines.flatten := by
  induction lines generalizing stack with
  | nil => exact ⟨[], rfl, .nil, rfl⟩
  | cons line later ih =>
    rw [List.flatten_cons] at hrun hnamed
    obtain ⟨hline, hlater⟩ := List.forall_mem_append.mp hnamed
    obtain ⟨between, hrunLine, hrunLater⟩ := exists_openAfter_of_append hrun
    obtain ⟨hreopens, hfull⟩ := reopened_spec hstack hline hrunLine
    have hbetween := isTagName_of_openAfter hstack hline hrunLine
    obtain ⟨fulls, htexts, hfulls, hstyled⟩ := ih hbetween hlater hrunLater
    refine ⟨_ :: fulls, ?_, .cons hreopens hfulls, ?_⟩
    · rw [balanceLines, openTags_of_openAfter hfull, htexts, List.map_cons]
    · rw [List.flatMap_cons, styledFrom_map_opening_append, List.reverse_reverse, hstyled,
        List.flatten_cons, styledFrom_append, stackAfter_of_openAfter hrunLine]

/-- Lines that keep the tags of well-nested spans are rebalanced behind opening tags, and look as
they do in a row. -/
theorem balanceLines_of_tags {spans : List Span} {lines : List (List Span)}
    (hnamed : ∀ span ∈ spans, span.isNamed = true) (hnested : openAfter [] spans = some [])
    (htags : tags lines.flatten = tags spans) :
    ∃ fulls, balanceLines [] lines = fulls.map (fun full => join (rebalance full)) ∧
      List.Forall₂ Reopens fulls lines ∧ fulls.flatMap styled = styled lines.flatten := by
  have hnamedLines := isNamed_of_tags_subset hnamed (by rw [htags]; exact List.Subset.refl _)
  rw [← openAfter_congr htags] at hnested
  exact balanceLines_spec (by simp) hnamedLines hnested

/-- Whether a text is a line that was rebalanced behind the tags open before it. -/
def Balances (text : Text) (line : List Span) : Prop :=
  ∃ full, text = join (rebalance full) ∧ Reopens full line

/-- A balanced line shows its text. -/
theorem Balances.showsWithout {bracket : Char} (hbracket : IsBracket bracket) {text : Text}
    {line : List Span} (h : Balances text line) (hlacks : bracket ∉ plainText line) :
    ShowsWithout bracket text (plainText line) := by
  obtain ⟨full, rfl, hplain, hnamed, after, hrun⟩ := h
  rw [← hplain] at hlacks ⊢
  exact ShowsWithout.rebalance hbracket hnamed hlacks hrun

/-- Lines that keep the tags of legible spans are balanced. -/
theorem Legible.balanceLines_balances {bracket : Char} {spans : List Span}
    {lines : List (List Span)} (h : Legible bracket spans)
    (htags : tags lines.flatten = tags spans) :
    List.Forall₂ Balances (balanceLines [] lines) lines := by
  obtain ⟨fulls, htexts, hfulls, _⟩ := balanceLines_of_tags h.named h.nested htags
  rw [htexts, List.forall₂_map_left_iff]
  exact hfulls.imp fun full line hreopens => ⟨full, rfl, hreopens⟩

end TextGrid.Markup
