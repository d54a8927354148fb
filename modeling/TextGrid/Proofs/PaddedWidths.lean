import Mathlib.Data.List.DropRight
import TextGrid.Markup.Pad
import TextGrid.Proofs.ClusterCuts
import TextGrid.Proofs.FaultyMarkup
import TextGrid.Proofs.MaximalSlices
import TextGrid.Proofs.Shown
import TextGrid.Proofs.Truncation

/-!
# Widths of padded text

The spaces around a text are counted one cell each, but the nearest ones may join its clusters.
Marks at its head join a space before them, and a mark at its end that belongs to what follows is
joined by a space behind it. No other space changes a cluster, and no space makes or breaks a tag,
so padded text is read and is as wide as asked for but for these two (`pads_measure`).
-/

namespace TextGrid

/-- Behind a plain code point the machine goes on as at the start of a text. -/
theorem BreakState.step_plain (next : BreakClass) : step .plain next = enter next := by
  cases next <;> rfl

namespace Cluster

/-- Whether a code point joins what stands before it, whatever that is. -/
def isMark (c : Char) : Bool :=
  match BreakClass.ofChar c with
  | .extending | .spacingMark | .joiner => true
  | _ => false

/-- Whether a code point is joined by what follows it. -/
def isPrepend (c : Char) : Bool :=
  BreakClass.ofChar c == .prependMark

/-- A code point is joined by what follows it if it is of the class for this. -/
theorem isPrepend_iff {c : Char} : isPrepend c = true ↔ BreakClass.ofChar c = .prependMark :=
  beq_iff_eq

/-! ### A space before a text -/

/-- A space is of no class of its own. -/
theorem ofChar_space : BreakClass.ofChar ' ' = .other := by decide +kernel

/-- A mark joins a plain code point and leaves the machine as it is behind one. -/
theorem enter_of_isMark {c : Char} (h : isMark c = true) :
    BreakState.enter (BreakClass.ofChar c) = (false, .plain) := by
  unfold isMark at h
  generalize BreakClass.ofChar c = kind at h ⊢
  cases kind <;> first | rfl | cases h

/-- All other code points start a cluster behind a plain one. -/
theorem enter_of_not_isMark {c : Char} (h : isMark c = false) :
    (BreakState.enter (BreakClass.ofChar c)).1 = true := by
  unfold isMark at h
  generalize BreakClass.ofChar c = kind at h ⊢
  cases kind <;> first | rfl | cases h

/-- Printable ASCII joins nothing before it and is joined by nothing. -/
theorem not_isMark_of_isPlain {c : Char} (h : Text.isPlain c = true) :
    isMark c = false ∧ isPrepend c = false := by
  have hsolitary := (Bool.and_eq_true_iff.mp (isOrdinary_of_isPlain h).1).1
  rw [isSolitary] at hsolitary
  rw [isMark, isPrepend]
  generalize BreakClass.ofChar c = kind at hsolitary ⊢
  cases kind <;> first | exact ⟨rfl, rfl⟩ | cases hsolitary

/-- Behind a plain code point the leading marks join it, and the rest has its own clusters. -/
theorem segmentFrom_plain (text : Text) :
    segmentFrom .plain text = text.takeWhile isMark :: segment (text.dropWhile isMark) := by
  induction text with
  | nil => rfl
  | cons c rest ih =>
    cases hmark : isMark c with
    | true => simp [segmentFrom, BreakState.step_plain, enter_of_isMark hmark, ih, grow, hmark]
    | false => simp [segmentFrom, BreakState.step_plain, enter_of_not_isMark hmark, hmark,
        segment]

/-- Marks at the head of a text are a cluster of their own. -/
theorem clusteredWidth_eq_add (text : Text) :
    Text.clusteredWidth text =
      width (text.takeWhile isMark) + Text.clusteredWidth (text.dropWhile isMark) := by
  cases text with
  | nil => rfl
  | cons c rest =>
    cases hmark : isMark c with
    | true =>
      simp [Text.clusteredWidth, segment, enter_of_isMark hmark, segmentFrom_plain, grow, hmark]
    | false => simp [hmark, width]

/-- A space before the marks at the head of a text joins them. -/
theorem clusteredWidth_cons_space (text : Text) :
    Text.clusteredWidth (' ' :: text) =
      width (' ' :: text.takeWhile isMark) + Text.clusteredWidth (text.dropWhile isMark) := by
  have henter : BreakState.enter (BreakClass.ofChar ' ') = (true, .plain) := by
    rw [ofChar_space]
    rfl
  simp [Text.clusteredWidth, segment, henter, segmentFrom_plain, grow]

end Cluster

/-! ### A space behind a text -/

namespace BreakState

/-- The state after a text. -/
def run (state : BreakState) (text : Text) : BreakState :=
  text.foldl (fun state c => (state.step (BreakClass.ofChar c)).2) state

/-- Behind a text that does not end in a prepending mark the machine waits for nothing. -/
theorem run_ne_afterPrepend {text : Text} (h : ∀ c ∈ text.getLast?, Cluster.isPrepend c = false) :
    run .plain text ≠ .afterPrepend := by
  rcases List.eq_nil_or_concat' text with rfl | ⟨before, c, rfl⟩
  · decide
  · have hc : Cluster.isPrepend c = false := h c (by simp)
    have hclass : BreakClass.ofChar c ≠ .prependMark := fun hclass => by
      rw [Cluster.isPrepend_iff.mpr hclass] at hc
      cases hc
    simpa [run] using step_ne_afterPrepend _ hclass

/-- A cluster starts at such a code point behind anything but a mark that it would belong to. -/
theorem step_eq_of_other {state : BreakState} (hstate : state ≠ .afterPrepend) {next : BreakClass}
    (hnext : next = .other ∨ next = .prependMark) :
    state.step next = (true, (enter next).2) := by
  rcases hnext with rfl | rfl <;> cases state <;> first | rfl | exact absurd rfl hstate

end BreakState

namespace Cluster

/-- Clusters end where the machine waits for nothing and a code point of no class follows, or a mark
that belongs to what comes after it. -/
theorem segmentFrom_append {state : BreakState} {text : Text}
    (hstate : state.run text ≠ .afterPrepend) {c : Char}
    (hc : BreakClass.ofChar c = .other ∨ BreakClass.ofChar c = .prependMark) (rest : Text) :
    segmentFrom state (text ++ c :: rest) = segmentFrom state text ++ segment (c :: rest) := by
  induction text generalizing state with
  | nil =>
    have hstep : state.step (BreakClass.ofChar c) = _ := BreakState.step_eq_of_other hstate hc
    simp [segmentFrom, hstep, segment]
  | cons first later ih =>
    have hlater := ih hstate
    obtain ⟨head, others, hothers⟩ :=
      exists_segmentFrom (state.step (BreakClass.ofChar first)).2 later
    simp only [List.cons_append, segmentFrom, hlater, hothers, grow]
    split <;> rfl

/-- Clusters before such a code point stay as they are, where no mark at their end belongs to it. -/
theorem clusteredWidth_append {text : Text} (htext : ∀ c ∈ text.getLast?, isPrepend c = false)
    {c : Char} (hc : BreakClass.ofChar c = .other ∨ BreakClass.ofChar c = .prependMark)
    (rest : Text) :
    Text.clusteredWidth (text ++ c :: rest) =
      Text.clusteredWidth text + Text.clusteredWidth (c :: rest) := by
  cases text with
  | nil => simp [Text.clusteredWidth, segment]
  | cons first later =>
    have hrun := BreakState.run_ne_afterPrepend htext
    rw [BreakState.run, List.foldl_cons, BreakState.step_plain] at hrun
    obtain ⟨head, others, hothers⟩ :=
      exists_segmentFrom (BreakState.enter (BreakClass.ofChar first)).2 later
    simp only [Text.clusteredWidth, List.cons_append, segment, segmentFrom_append hrun hc,
      hothers, grow, List.map_cons, List.map_append, sumNat_cons, sumNat_append]
    omega

/-- Marks that belong to what follows are one cluster with what they are joined by. -/
theorem segmentFrom_prepends {marks tail : Text} (hmarks : ∀ c ∈ marks, isPrepend c = true)
    (htail : segmentFrom .afterPrepend tail = [tail]) :
    segmentFrom .afterPrepend (marks ++ tail) = [marks ++ tail] := by
  induction marks with
  | nil => exact htail
  | cons c later ih =>
    obtain ⟨hc, hlater⟩ := List.forall_mem_cons.mp hmarks
    have hclass := isPrepend_iff.mp hc
    have hstep : BreakState.step .afterPrepend .prependMark = (false, .afterPrepend) := rfl
    simp [segmentFrom, hclass, hstep, ih hlater, grow]

/-- Without the prepending marks at its end a text does not end in one. -/
theorem isPrepend_getLast?_rdropWhile (text : Text) :
    ∀ c ∈ (text.rdropWhile isPrepend).getLast?, isPrepend c = false := by
  intro c hc
  obtain ⟨hne, rfl⟩ := List.mem_getLast?_eq_getLast hc
  simpa using List.rdropWhile_last_not isPrepend text hne

/-- A text is as wide as what stands before such marks at its end, and they with what they are
joined by. -/
theorem clusteredWidth_concat (text tail : Text)
    (htail : segmentFrom .afterPrepend tail = [tail])
    (halone : Text.clusteredWidth (text.rdropWhile isPrepend ++ tail) =
      Text.clusteredWidth (text.rdropWhile isPrepend) + width tail) :
    Text.clusteredWidth (text ++ tail) =
      Text.clusteredWidth (text.rdropWhile isPrepend) +
        width (text.rtakeWhile isPrepend ++ tail) := by
  have hbefore := isPrepend_getLast?_rdropWhile text
  have hmarks : ∀ c ∈ text.rtakeWhile isPrepend, isPrepend c = true := fun c hc =>
    List.mem_rtakeWhile_imp hc
  have hwhole : text.rdropWhile isPrepend ++ text.rtakeWhile isPrepend = text :=
    List.rdropWhile_append_rtakeWhile
  generalize text.rdropWhile isPrepend = before, text.rtakeWhile isPrepend = marks at *
  subst hwhole
  cases marks with
  | nil => simpa using halone
  | cons c later =>
    obtain ⟨hc, hlater⟩ := List.forall_mem_cons.mp hmarks
    have hclass := isPrepend_iff.mp hc
    have henter : BreakState.enter .prependMark = (true, .afterPrepend) := rfl
    have hjoined : Text.clusteredWidth (c :: later ++ tail) = width (c :: later ++ tail) := by
      simp [Text.clusteredWidth, segment, hclass, henter, segmentFrom_prepends hlater htail, grow]
    rw [List.append_assoc, List.cons_append, clusteredWidth_append hbefore (Or.inr hclass),
      ← List.cons_append, hjoined]

end Cluster

namespace Text

/-- Marks at the head of a text, which join what stands before them. -/
def leadingMarks (text : Text) : Text :=
  text.takeWhile Cluster.isMark

/-- Marks at the end of a text that belong to what follows. -/
def trailingMarks (text : Text) : Text :=
  text.rtakeWhile Cluster.isPrepend

/-- Cells that a space before a text adds to its width beyond the one that it takes. -/
def surplusBefore (text : Text) : Int :=
  Cluster.width (' ' :: text.leadingMarks) - Cluster.width text.leadingMarks - 1

/-- Cells that a space behind a text adds to its width beyond the one that it takes. -/
def surplusBehind (text : Text) : Int :=
  Cluster.width (text.trailingMarks ++ [' ']) - Cluster.width text.trailingMarks - 1

/-- A space in front takes one cell and the surplus. -/
theorem width_cons_space (text : Text) :
    (width (' ' :: text) : Int) = width text + 1 + text.surplusBefore := by
  have hspaced := Cluster.clusteredWidth_cons_space text
  have hbare := Cluster.clusteredWidth_eq_add text
  rw [width_eq_clusteredWidth, width_eq_clusteredWidth, surplusBefore, leadingMarks]
  omega

/-- A space behind takes one cell and the surplus. -/
theorem width_concat_space (text : Text) :
    (width (text ++ [' ']) : Int) = width text + 1 + text.surplusBehind := by
  have hbefore := Cluster.isPrepend_getLast?_rdropWhile text
  have hspaced := Cluster.clusteredWidth_concat text [' ']
    (by simp [Cluster.segmentFrom, Cluster.grow, Cluster.ofChar_space, BreakState.step,
      BreakState.enter])
    (Cluster.clusteredWidth_append hbefore (Or.inl Cluster.ofChar_space) [])
  have hbare := Cluster.clusteredWidth_concat text [] rfl (by simp [Cluster.width])
  rw [List.append_nil, List.append_nil] at hbare
  rw [width_eq_clusteredWidth, width_eq_clusteredWidth, surplusBehind, trailingMarks]
  omega

/-- A space before a space has no surplus. -/
@[simp] theorem surplusBefore_cons_space (text : Text) : surplusBefore (' ' :: text) = 0 := by
  have hmarks : leadingMarks (' ' :: text) = [] := by
    simp [leadingMarks, Cluster.isMark, Cluster.ofChar_space]
  simp [surplusBefore, hmarks, Cluster.width, charWidth_space]

/-- A space behind a space has no surplus. -/
@[simp] theorem surplusBehind_concat_space (text : Text) : surplusBehind (text ++ [' ']) = 0 := by
  have hmarks : trailingMarks (text ++ [' ']) = [] := by
    simp [trailingMarks, Cluster.isPrepend, Cluster.ofChar_space]
  simp [surplusBehind, hmarks, Cluster.width, charWidth_space]

end Text

/-! ### Spaces that change nothing -/

namespace Cluster

/-- The code points that make a pictograph of a cluster. -/
def emojiSigns : List Nat :=
  [0x200D, 0xFE0F] ++ List.range' 0x1F1E6 26 ++ List.range' 0x1F3FB 5

/-- A sign of a pictograph that stands alone takes no cells or two. -/
theorem charWidth_ne_one_of_isEmojiSign {c : Char} (h : isEmojiSign c = true) :
    charWidth c ≠ 1 := by
  have hsigns : ∀ code ∈ emojiSigns, charWidth (Char.ofNat code) ≠ 1 := by decide +kernel
  have hmem : c.toNat ∈ emojiSigns := by
    simp only [isEmojiSign, Bool.or_eq_true, Bool.and_eq_true, beq_iff_eq,
      decide_eq_true_eq] at h
    simp only [emojiSigns, List.mem_append, List.mem_cons, List.not_mem_nil, or_false,
      List.mem_range'_1]
    omega
  have hc := hsigns c.toNat hmem
  rwa [Char.ofNat_toNat] at hc

/-- A cluster that shows a pictograph takes no cells or two. -/
theorem width_ne_one_of_isEmojiSign {cluster : Text} (h : cluster.any isEmojiSign = true) :
    width cluster ≠ 1 := by
  match cluster with
  | [] => cases h
  | [c] =>
    have hsign : isEmojiSign c = true := by simpa using h
    exact charWidth_ne_one_of_isEmojiSign hsign
  | first :: second :: later =>
    rw [width, if_pos h]
    · decide
    · simp

/-- A space with marks on it takes one cell, or two if they make it a pictograph. -/
theorem width_space_cons (c : Char) (marks : Text) :
    width (' ' :: c :: marks) = if (c :: marks).any isEmojiSign then 2 else 1 := by
  have hsign : isEmojiSign ' ' = false := by decide
  have hsymbol : isSymbol ' ' = false := by decide
  have hformat : Unicode.formatMark.contains ' '.toNat = false := by decide
  rw [width, List.any_cons, hsign, Bool.false_or, hsymbol, hformat, Text.charWidth_space]
  · rfl
  · simp

/-- A code point that is found lies in one of the ranges. -/
theorem exists_range_of_contains {ranges : Unicode.Ranges} {code : Nat}
    (h : ranges.contains code = true) : ∃ range ∈ ranges, range.1 ≤ code ∧ code ≤ range.2 := by
  induction ranges with
  | nil => cases h
  | cons range later ih =>
    rw [Unicode.Ranges.contains] at h
    split at h
    · cases h
    · next hlow =>
      rcases Bool.or_eq_true_iff.mp h with hhigh | hlater
      · exact ⟨range, List.mem_cons_self .., by omega, of_decide_eq_true hhigh⟩
      · obtain ⟨found, hfound, hbounds⟩ := ih hlater
        exact ⟨found, List.mem_cons_of_mem _ hfound, hbounds⟩

/-- A mark that belongs to what follows makes no pictograph and is no symbol. -/
theorem not_isEmojiSign_of_isPrepend {c : Char} (h : isPrepend c = true) :
    isEmojiSign c = false ∧ isSymbol c = false := by
  have hcontains : Unicode.prependMark.contains c.toNat = true := by
    by_contra hnot
    have hother : BreakClass.ofChar c ≠ .prependMark := by
      rw [BreakClass.ofChar, if_neg hnot]
      repeat' apply ite_ne
      all_goals decide
    exact hother (isPrepend_iff.mp h)
  have hranges : ∀ range ∈ Unicode.prependMark,
      range.2 < 0x200D ∨ 0xFE0F < range.1 ∧ range.2 < 0x1F000 := by decide
  obtain ⟨range, hrange, hlow, hhigh⟩ := exists_range_of_contains hcontains
  have hbounds := hranges range hrange
  constructor
  · simp only [isEmojiSign, Bool.or_eq_false_iff, Bool.and_eq_false_iff, beq_eq_false_iff_ne,
      decide_eq_false_iff_not]
    omega
  · simp only [isSymbol, Bool.or_eq_false_iff, Bool.and_eq_false_iff, decide_eq_false_iff_not]
    omega

/-- A space that such marks belong to adds no cells. -/
theorem width_concat_space_le {marks : Text} (hmarks : ∀ c ∈ marks, isPrepend c = true)
    (hne : marks ≠ []) : width (marks ++ [' ']) ≤ width marks := by
  have hsign : isEmojiSign ' ' = false := by decide
  match marks, hne with
  | [c], _ =>
    obtain ⟨hsignless, hsymbol⟩ := not_isEmojiSign_of_isPrepend (hmarks c (by simp))
    simp only [List.cons_append, List.nil_append, width, List.any_cons, List.any_nil, hsignless,
      hsign, hsymbol, Bool.or_false, Bool.false_eq_true, if_false]
    split
    · exact Nat.zero_le _
    · exact Nat.le_refl _
  | first :: second :: later, _ =>
    simp [width, hsign]

end Cluster

namespace Text

/-- A space before a text takes its own cell only, unless the marks at the head of the text take
cells or make a pictograph of it. -/
theorem surplusBefore_eq_zero_iff {text : Text} :
    text.surplusBefore = 0 ↔ Cluster.width text.leadingMarks = 0 ∧
      ∀ c ∈ text.leadingMarks, Cluster.isEmojiSign c = false := by
  rw [surplusBefore]
  generalize text.leadingMarks = marks
  cases marks with
  | nil => simp [Cluster.width, charWidth_space]
  | cons c later =>
    have hnone : (∀ mark ∈ c :: later, Cluster.isEmojiSign mark = false) ↔
        (c :: later).any Cluster.isEmojiSign = false := by simp
    rw [Cluster.width_space_cons, hnone]
    cases hsigns : (c :: later).any Cluster.isEmojiSign with
    | false =>
      simp only [Bool.false_eq_true, if_false, and_true]
      omega
    | true =>
      have hwidth := Cluster.width_ne_one_of_isEmojiSign hsigns
      simp only [if_true, Bool.true_eq_false, and_false, iff_false]
      omega

/-- A space behind a text takes its own cell only, unless a mark at the end of the text belongs to
it. -/
theorem surplusBehind_eq_zero_iff {text : Text} :
    text.surplusBehind = 0 ↔ ∀ c ∈ text.getLast?, Cluster.isPrepend c = false := by
  have hnone : text.trailingMarks = [] ↔ ∀ c ∈ text.getLast?, Cluster.isPrepend c = false := by
    rw [trailingMarks, List.rtakeWhile_eq_nil_iff]
    constructor
    · intro hlast c hc
      obtain ⟨hne, rfl⟩ := List.mem_getLast?_eq_getLast hc
      simpa using hlast hne
    · intro hlast hne
      simpa using hlast _ (List.getLast?_eq_some_getLast hne)
  rw [← hnone]
  constructor
  · intro hsurplus
    by_contra hne
    have hmarks : ∀ c ∈ text.trailingMarks, Cluster.isPrepend c = true := fun c hc =>
      List.mem_rtakeWhile_imp hc
    have hle := Cluster.width_concat_space_le hmarks hne
    rw [surplusBehind] at hsurplus
    omega
  · intro hmarks
    simp [surplusBehind, hmarks, Cluster.width, charWidth_space]

/-! ### Spaces around marked-up text -/

/-- What is taken from the front ends where a second text begins, if its head is not taken. -/
theorem takeWhile_append_of_head? {p : Char → Bool} (left : Text) {right : Text}
    (h : ∀ c ∈ right.head?, p c = false) : (left ++ right).takeWhile p = left.takeWhile p := by
  induction left with
  | nil =>
    cases right with
    | nil => rfl
    | cons c later => simp [h c (by simp)]
  | cons c later ih => simp [List.takeWhile_cons, ih]

/-- The surplus in front is that of the first text, if the second does not begin with a mark. -/
theorem surplusBefore_append (content : Text) {rest : Text}
    (h : ∀ c ∈ rest.head?, Cluster.isMark c = false) :
    surplusBefore (content ++ rest) = surplusBefore content := by
  rw [surplusBefore, surplusBefore, leadingMarks, leadingMarks, takeWhile_append_of_head? content h]

/-- The surplus behind is that of the second text, if the first ends in no prepending mark. -/
theorem surplusBehind_append {front : Text} (content : Text)
    (h : ∀ c ∈ front.getLast?, Cluster.isPrepend c = false) :
    surplusBehind (front ++ content) = surplusBehind content := by
  have hmarks : (front ++ content).trailingMarks = content.trailingMarks := by
    have hhead : ∀ c ∈ front.reverse.head?, Cluster.isPrepend c = false := by simpa using h
    rw [trailingMarks, trailingMarks, List.rtakeWhile, List.rtakeWhile, List.reverse_append,
      takeWhile_append_of_head? content.reverse hhead]
  rw [surplusBehind, surplusBehind, hmarks]

end Text

namespace Markup

/-- A text as one span is as wide as the text. -/
theorem spansWidth_textSpans (content : Text) :
    spansWidth (textSpans content) = Text.width content := by
  cases content <;> simp [textSpans, spansWidth, Span.content, Text.width]

/-- No tag ends in a space. -/
theorem not_hasTag_concat_space {content : Text} (h : ¬ HasTag content) :
    ¬ HasTag (content ++ [' ']) := by
  rintro ⟨tag, htag, hnamed, hinfix⟩
  rcases List.infix_concat_iff.mp hinfix with ⟨before, hsuffix⟩ | hinside
  · obtain ⟨inside, hprint, _⟩ := exists_print_eq htag hnamed
    rw [hprint, ← List.append_assoc] at hsuffix
    have hlast := List.append_inj_right' hsuffix rfl
    simp at hlast
  · exact h ⟨tag, htag, hnamed, hinside⟩

/-- What a scan finds is a text behind a list that does not end in one. -/
theorem exists_last_text (text : Text) :
    ∃ front content, scan text = front ++ textSpans content ∧ Faithful front ∧
      ¬ HasTag content ∧ ∀ span ∈ front.getLast?, span.isText = false := by
  have hfaithful := faithful_scan text
  rcases List.eq_nil_or_concat' (scan text) with hnil | ⟨before, last, hlast⟩
  · rw [hnil] at hfaithful ⊢
    exact ⟨[], [], rfl, hfaithful, not_hasTag_nil, by simp⟩
  · rw [hlast] at hfaithful ⊢
    cases htag : last.isText with
    | false =>
      refine ⟨before ++ [last], [], by simp [textSpans], hfaithful, not_hasTag_nil, ?_⟩
      simpa using htag
    | true =>
      cases last with
      | text content =>
        have hcontent : content ≠ [] := by
          rintro rfl
          exact hfaithful.filled (by simp)
        refine ⟨before, content, ?_, hfaithful.of_append, hfaithful.literal content (by simp), ?_⟩
        · obtain ⟨c, later, rfl⟩ := List.exists_cons_of_ne_nil hcontent
          rfl
        · intro span hspan
          have hpair := (List.isChain_append.mp hfaithful.apart).2.2 span hspan (.text content)
          exact (hpair (by simp)).resolve_right (by simp [Span.isText])
      | opening name | closing name => cases htag

/-- Behind a list that does not end in a text, a text is scanned as if it stood alone. -/
theorem Faithful.scan_join_append {front : List Span} (h : Faithful front)
    (hlast : ∀ span ∈ front.getLast?, span.isText = false) (more : Text) :
    scan (join front ++ more) = front ++ scan more := by
  rcases List.eq_nil_or_concat' front with rfl | ⟨before, tag, rfl⟩
  · simp
  · have htag : tag.isText = false := hlast tag (by simp)
    rw [h.scan_append htag more, List.append_assoc, List.singleton_append]

/-- Whether a text is read and takes a number of cells. -/
def Measures (text : Text) (width : Int) : Prop :=
  Accepted text ∧ ∃ used : Nat, displayWidth text = .ok used ∧ (used : Int) = width

/-- A text measures a width exactly if its tags are well nested and its spans are as wide. -/
theorem measures_iff {text : Text} {width : Int} :
    Measures text width ↔
      openAfter [] (scan text) = some [] ∧ (spansWidth (scan text) : Int) = width := by
  rw [Measures, accepted_iff]
  refine and_congr_right fun hnested => ?_
  have hparse : parse text = .ok (scan text) := parse_eq_ok_iff.mpr ⟨rfl, hnested⟩
  simp [displayWidth_of_parse hparse]

namespace Measures

variable {text : Text} {width : Int}

/-- A space before a text adds its own cell, and what it does to the marks that it meets. -/
theorem cons_space (h : Measures text width) :
    Measures (' ' :: text) (width + 1 + text.surplusBefore) := by
  rw [measures_iff] at h ⊢
  obtain ⟨hjoin, hnamed, _⟩ := scan_spec text
  have hread : readTag? (' ' :: text) = none := readTag?_of_ne (by decide) text
  rw [scan_of_readTag?_eq_none hread, openAfter_consChar]
  refine ⟨h.1, ?_⟩
  have hapart := (scan_apart_literal text).1
  obtain ⟨content, later, hcons, hspans⟩ := consChar_cases ' ' (scan text)
  have hfound : text = content ++ join later ∧ (∀ span ∈ later, span.isNamed = true) ∧
      (∀ span ∈ later.head?, span.isText = false) ∧
      spansWidth (scan text) = Text.width content + spansWidth later := by
    rcases hspans with hspans | ⟨rfl, hspans, hhead⟩
    · rw [hspans] at hjoin hnamed hapart ⊢
      refine ⟨hjoin.symm, (List.forall_mem_cons.mp hnamed).2, fun span hspan => ?_, rfl⟩
      exact ((List.isChain_cons.mp hapart).1 span hspan).resolve_left (by simp [Span.isText])
    · rw [hspans] at hjoin hnamed ⊢
      refine ⟨hjoin.symm, hnamed, hhead, ?_⟩
      simp [Text.width]
  obtain ⟨htext, hlater, hhead, hwidth⟩ := hfound
  have hbracket : Cluster.isMark '[' = false := (Cluster.not_isMark_of_isPlain rfl).1
  have hmarks : ∀ c ∈ (join later).head?, Cluster.isMark c = false := by
    intro c hc
    rw [head?_join hlater hhead c hc]
    exact hbracket
  have hsurplus : text.surplusBefore = Text.surplusBefore content := by
    rw [htext, Text.surplusBefore_append content hmarks]
  have hspaced := Text.width_cons_space content
  have hafter : spansWidth (.text (' ' :: content) :: later) =
      Text.width (' ' :: content) + spansWidth later := rfl
  rw [hcons, hafter, hsurplus]
  omega

/-- A space behind a text adds its own cell, and what it does to the marks that it meets. -/
theorem concat_space (h : Measures text width) :
    Measures (text ++ [' ']) (width + 1 + text.surplusBehind) := by
  rw [measures_iff] at h ⊢
  obtain ⟨front, content, hscan, hfront, hliteral, hlast⟩ := exists_last_text text
  have htext : text = join front ++ content := by
    rw [← join_textSpans content, ← join_append, ← hscan, (scan_spec text).1]
  have hspaced : scan (text ++ [' ']) = front ++ textSpans (content ++ [' ']) := by
    rw [htext, List.append_assoc, hfront.scan_join_append hlast,
      scan_of_literal (not_hasTag_concat_space hliteral)]
  have hbracket : Cluster.isPrepend ']' = false := (Cluster.not_isMark_of_isPlain rfl).2
  have hmarks : ∀ c ∈ (join front).getLast?, Cluster.isPrepend c = false := by
    intro c hc
    rcases List.eq_nil_or_concat' front with rfl | ⟨before, tag, rfl⟩
    · simp at hc
    · obtain ⟨inside, hprint, _⟩ :=
        exists_print_eq (hlast tag (by simp)) (hfront.named tag (by simp))
      rw [join_append, join_cons, join_nil, List.append_nil, hprint, ← List.append_assoc,
        List.getLast?_concat] at hc
      obtain rfl : ']' = c := Option.some.inj hc
      exact hbracket
  have hsurplus : text.surplusBehind = content.surplusBehind := by
    rw [htext, Text.surplusBehind_append content hmarks]
  have hwidth := Text.width_concat_space content
  rw [hscan] at h
  rw [hspaced, hsurplus]
  simp only [openAfter_append, openAfter_textSpans, spansWidth_append, spansWidth_textSpans,
    Int.natCast_add] at h ⊢
  refine ⟨h.1, ?_⟩
  omega

/-- Of several spaces before a text only the last meets its marks. -/
theorem spaces_append (h : Measures text width) (count : Nat) :
    Measures (List.replicate count ' ' ++ text)
      (width + count + if 0 < count then text.surplusBefore else 0) := by
  induction count with
  | zero => simpa using h
  | succ count ih =>
    have hsurplus : Text.surplusBefore (List.replicate count ' ' ++ text) =
        if 0 < count then 0 else text.surplusBefore := by
      cases count <;> simp [List.replicate_succ]
    have hspaced := ih.cons_space
    rw [hsurplus] at hspaced
    rw [List.replicate_succ, List.cons_append, if_pos (Nat.succ_pos count), Int.natCast_succ]
    split at hspaced
    · rwa [Int.add_zero, Int.add_right_comm, Int.add_assoc width] at hspaced
    · rwa [Int.add_zero, Int.add_assoc width] at hspaced

/-- Of several spaces behind a text only the first meets its marks. -/
theorem append_spaces (h : Measures text width) (count : Nat) :
    Measures (text ++ List.replicate count ' ')
      (width + count + if 0 < count then text.surplusBehind else 0) := by
  induction count with
  | zero => simpa using h
  | succ count ih =>
    have hsurplus : Text.surplusBehind (text ++ List.replicate count ' ') =
        if 0 < count then 0 else text.surplusBehind := by
      cases count with
      | zero => simp
      | succ count =>
        rw [List.replicate_succ', ← List.append_assoc, Text.surplusBehind_concat_space]
        simp
    have hspaced := ih.concat_space
    rw [hsurplus] at hspaced
    rw [List.replicate_succ', ← List.append_assoc, if_pos (Nat.succ_pos count), Int.natCast_succ]
    split at hspaced
    · rwa [Int.add_zero, Int.add_right_comm, Int.add_assoc width] at hspaced
    · rwa [Int.add_zero, Int.add_assoc width] at hspaced

end Measures

/-- **Padded widths.** Padded text is read again. It is as wide as asked for, or as the text if that
is wider, but for what the marks at the ends of the text do to the spaces that they meet; padding on
both sides puts a space before the text if it lacks two cells. They do nothing exactly if those at
the head take no cells and make no pictograph, and none at the end belongs to what follows. -/
theorem pads_measure {text : Text} (h : Accepted text) (width : Int) :
    ∃ used : Nat, displayWidth text = .ok used ∧
      (∃ padded, padLeft text width = .ok padded ∧
        Measures padded (max width used + if used < width then text.surplusBefore else 0)) ∧
      (∃ padded, padRight text width = .ok padded ∧
        Measures padded (max width used + if used < width then text.surplusBehind else 0)) ∧
      (∃ padded, padCenter text width = .ok padded ∧
        Measures padded (max width used + (if used + 1 < width then text.surplusBefore else 0) +
          if used < width then text.surplusBehind else 0)) ∧
      (text.surplusBefore = 0 ↔ Cluster.width text.leadingMarks = 0 ∧
        ∀ c ∈ text.leadingMarks, Cluster.isEmojiSign c = false) ∧
      (text.surplusBehind = 0 ↔ ∀ c ∈ text.getLast?, Cluster.isPrepend c = false) := by
  obtain ⟨spans, hparse⟩ := h
  have hused := displayWidth_of_parse hparse
  generalize spansWidth spans = used at hused
  have hshown : Measures text used := ⟨⟨spans, hparse⟩, used, hused, rfl⟩
  obtain ⟨lacking, hlacking⟩ : ∃ lacking : Nat, lacking = (width - used).toNat := ⟨_, rfl⟩
  have hwidth : max width used = used + (lacking : Int) := by omega
  have hlacks : (used : Int) < width ↔ 0 < lacking := by omega
  have hleft : (used : Int) + 1 < width ↔ 0 < lacking / 2 := by omega
  have hright : 0 < lacking ↔ 0 < lacking - lacking / 2 := by omega
  refine ⟨used, hused, ⟨_, padLeft_eq hused width, ?_⟩, ⟨_, padRight_eq hused width, ?_⟩, ?_,
    Text.surplusBefore_eq_zero_iff, Text.surplusBehind_eq_zero_iff⟩
  · rw [Text.spaces, ← hlacking, hwidth]
    simp only [hlacks]
    exact hshown.spaces_append lacking
  · rw [Text.spaces, ← hlacking, hwidth]
    simp only [hlacks]
    exact hshown.append_spaces lacking
  · have hpadded : padCenter text width = .ok (Text.spaces (lacking / 2 : Nat) ++ text ++
        Text.spaces (lacking - lacking / 2 : Nat)) := by
      rw [padCenter, shortfall_eq hused, hlacking]
      rfl
    refine ⟨_, hpadded, ?_⟩
    have hspaces : ∀ count : Nat, Text.spaces count = List.replicate count ' ' := fun count => by
      rw [Text.spaces, Int.toNat_natCast]
    -- The spaces behind the text leave the marks at its head as they are.
    have hspace : Cluster.isMark ' ' = false := (Cluster.not_isMark_of_isPlain rfl).1
    have hmarks : ∀ c ∈ (List.replicate (lacking - lacking / 2) ' ').head?,
        Cluster.isMark c = false := by
      intro c hc
      rw [List.eq_of_mem_replicate (List.mem_of_mem_head? hc)]
      exact hspace
    have hfilled := (hshown.append_spaces (lacking - lacking / 2)).spaces_append (lacking / 2)
    rw [Text.surplusBefore_append text hmarks, ← List.append_assoc] at hfilled
    have hwhole : (lacking : Int) = (lacking - lacking / 2 : Nat) + (lacking / 2 : Nat) := by
      omega
    rw [hwidth, hwhole, hspaces, hspaces]
    simp only [hlacks, hleft, hright]
    convert hfilled using 1
    omega

/-- An accent that stands before its letter takes no cells and leaves the spaces around it alone. -/
theorem pads_measure_accentFirst :
    Accepted [Char.ofNat 0x301, 'x'] ∧
      (∃ padded, padLeft [Char.ofNat 0x301, 'x'] 4 = .ok padded ∧ Measures padded 4) ∧
      (∃ padded, padRight [Char.ofNat 0x301, 'x'] 4 = .ok padded ∧ Measures padded 4) ∧
      ∃ padded, padCenter [Char.ofNat 0x301, 'x'] 4 = .ok padded ∧ Measures padded 4 := by
  have hread : parse [Char.ofNat 0x301, 'x'] = .ok [.text [Char.ofNat 0x301, 'x']] ∧
      displayWidth [Char.ofNat 0x301, 'x'] = .ok 1 ∧
      Text.surplusBefore [Char.ofNat 0x301, 'x'] = 0 ∧
      Text.surplusBehind [Char.ofNat 0x301, 'x'] = 0 := by decide +kernel
  obtain ⟨hparse, hone, hbefore, hbehind⟩ := hread
  have haccepted : Accepted [Char.ofNat 0x301, 'x'] := ⟨_, hparse⟩
  obtain ⟨used, hused, hleft, hright, hcenter, _⟩ := pads_measure haccepted 4
  obtain rfl : 1 = used := Except.ok.inj (hone.symm.trans hused)
  rw [hbefore] at hleft hcenter
  rw [hbehind] at hright hcenter
  exact ⟨haccepted, hleft, hright, hcenter⟩

/-- An emoji selector makes the space before it a pictograph of two cells, and an Arabic number sign
takes the space behind it and its own cell away. -/
theorem pads_mismeasure :
    parse [Char.ofNat 0xFE0F] = .ok [.text [Char.ofNat 0xFE0F]] ∧
      displayWidth [Char.ofNat 0xFE0F] = .ok 0 ∧
      padLeft [Char.ofNat 0xFE0F] 3 = .ok [' ', ' ', ' ', Char.ofNat 0xFE0F] ∧
      displayWidth [' ', ' ', ' ', Char.ofNat 0xFE0F] = .ok 4 ∧
      displayWidth [Char.ofNat 0x600] = .ok 1 ∧
      padRight [Char.ofNat 0x600] 3 = .ok [Char.ofNat 0x600, ' ', ' '] ∧
      displayWidth [Char.ofNat 0x600, ' ', ' '] = .ok 1 := by
  decide +kernel

end Markup

end TextGrid
