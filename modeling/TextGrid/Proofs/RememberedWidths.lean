import TextGrid.Proofs.Shown
import TextGrid.WidthMemo

/-!
# Shortcuts in measuring

Printable ASCII is counted, a text without a bracket is not searched for tags, and the width of any
other text may be remembered. The long way scans every text for tags and segments all that stands
between them. No shortcut gives another width, and none hides a fault (`measureAll_fullWidth`).
-/

namespace TextGrid

/-! ### The long way -/

namespace Markup

/-- Cells that the text spans take, with every text segmented. -/
def clusteredSpansWidth (spans : List Span) : Nat :=
  sumNat (spans.map fun span => Text.clusteredWidth span.content)

/-- The short ways to a width find what the clusters of all spans take. -/
theorem spansWidth_eq_clusteredSpansWidth (spans : List Span) :
    spansWidth spans = clusteredSpansWidth spans := by
  simp only [spansWidth, clusteredSpansWidth, Text.width_eq_clusteredWidth]

/-- A marked-up text is as wide as the spans that the full scan finds, and has the same fault. -/
theorem displayWidth_eq_map (text : Text) :
    displayWidth text = (parseTags text).map spansWidth := by
  rw [← parse_eq_parseTags]
  cases hparse : parse text with
  | ok spans => exact displayWidth_of_parse hparse
  | error fault =>
    -- A text without a bracket has no fault, so the scan was not left out.
    have hbracket : text.contains '[' = true := by
      by_contra hbare
      rw [parse, if_neg hbare] at hparse
      split at hparse <;> cases hparse
    rw [displayWidth, if_pos hbracket, hparse]
    rfl

end Markup

namespace Measurand

/-- The width of what is measured, found the long way. -/
def fullWidth : Measurand → Except MarkupError Nat
  | content text => .ok text.clusteredWidth
  | spans parts => .ok (Markup.clusteredSpansWidth parts)
  | markup text => (Markup.parseTags text).map Markup.clusteredSpansWidth

/-- The full width of marked-up text is its display width. -/
theorem fullWidth_markup (text : Text) : (markup text).fullWidth = Markup.displayWidth text := by
  have hwidths : Markup.spansWidth = Markup.clusteredSpansWidth :=
    funext Markup.spansWidth_eq_clusteredSpansWidth
  rw [Markup.displayWidth_eq_map, hwidths, fullWidth]

end Measurand

/-! ### Remembered widths -/

namespace WidthMemo

/-- A memo that holds no text twice, each with the width of its clusters, and no more texts than
there is room for. -/
structure Faithful (memo : WidthMemo) : Prop where
  distinct : (memo.entries.map (·.1)).Nodup
  widths : ∀ entry ∈ memo.entries, entry.2 = Text.clusteredWidth entry.1
  bounded : memo.entries.length ≤ capacity

/-- A memo that holds nothing is faithful. -/
theorem faithful_empty : empty.Faithful where
  distinct := List.nodup_nil
  widths := by simp [empty]
  bounded := Nat.zero_le _

namespace Faithful

variable {memo : WidthMemo}

/-- A faithful memo finds the width that the clusters take. -/
theorem eq_of_find? (h : memo.Faithful) {text : Text} {width : Nat}
    (hfound : memo.find? text = some width) : width = Text.clusteredWidth text := by
  obtain ⟨before, after, hentries, _⟩ := List.lookup_eq_some_iff.mp hfound
  exact h.widths (text, width) (by simp [hentries])

/-- The width of a text that is not remembered may be remembered. -/
theorem insert (h : memo.Faithful) {text : Text} (hmissed : memo.find? text = none) :
    (memo.insert text (Text.clusteredWidth text)).Faithful := by
  have hnew : text ∉ memo.entries.map (·.1) := by
    intro hmem
    obtain ⟨entry, hentry, rfl⟩ := List.mem_map.mp hmem
    simpa using List.lookup_eq_none_iff.mp hmissed entry hentry
  unfold WidthMemo.insert
  split
  · next hroom =>
    exact ⟨List.nodup_cons.mpr ⟨hnew, h.distinct⟩, List.forall_mem_cons.mpr ⟨rfl, h.widths⟩, hroom⟩
  · exact ⟨by simp, by simp, by simp [capacity]⟩

/-- A text has the width of its clusters, remembered or not. -/
theorem contentWidth (h : memo.Faithful) (text : Text) :
    (memo.contentWidth text).1 = Text.clusteredWidth text ∧
      (memo.contentWidth text).2.Faithful := by
  unfold WidthMemo.contentWidth
  split
  · next hplain =>
    have hwidth : Text.width text = text.length := if_pos hplain
    exact ⟨hwidth.symm.trans (Text.width_eq_clusteredWidth text), h⟩
  · split
    · next hfound => exact ⟨h.eq_of_find? hfound, h⟩
    · next hmissed => exact ⟨rfl, h.insert hmissed⟩

/-- Spans are measured with a faithful memo as without it, and it stays faithful. -/
theorem spansWidth (h : memo.Faithful) (spans : List Span) :
    (memo.spansWidth spans).1 = Markup.clusteredSpansWidth spans ∧
      (memo.spansWidth spans).2.Faithful := by
  induction spans generalizing memo with
  | nil => exact ⟨rfl, h⟩
  | cons span later ih =>
    obtain ⟨hwidth, hafter⟩ := h.contentWidth span.content
    obtain ⟨hrest, hlast⟩ := ih hafter
    exact ⟨congrArg₂ (· + ·) hwidth hrest, hlast⟩

/-- What is measured has its full width, and the memo stays faithful. -/
theorem measure (h : memo.Faithful) (measurand : Measurand) :
    (memo.measure measurand).1 = measurand.fullWidth ∧ (memo.measure measurand).2.Faithful := by
  cases measurand with
  | content text => exact (h.contentWidth text).imp_left (congrArg Except.ok)
  | spans parts => exact (h.spansWidth parts).imp_left (congrArg Except.ok)
  | markup text =>
    rw [Measurand.fullWidth_markup]
    simp only [WidthMemo.measure, Markup.displayWidth]
    split
    · cases Markup.parse text with
      | error fault => exact ⟨rfl, h⟩
      | ok spans =>
        obtain ⟨hwidth, hafter⟩ := h.spansWidth spans
        rw [← Markup.spansWidth_eq_clusteredSpansWidth] at hwidth
        exact ⟨congrArg Except.ok hwidth, hafter⟩
    · obtain ⟨hwidth, hafter⟩ := h.contentWidth text
      rw [← Text.width_eq_clusteredWidth] at hwidth
      exact ⟨congrArg Except.ok hwidth, hafter⟩

/-- Any things measured one after another have their full widths, and the memo stays faithful. -/
theorem measureAll (h : memo.Faithful) (measurands : List Measurand) :
    (memo.measureAll measurands).1 = measurands.map Measurand.fullWidth ∧
      (memo.measureAll measurands).2.Faithful := by
  induction measurands generalizing memo with
  | nil => exact ⟨rfl, h⟩
  | cons measurand later ih =>
    obtain ⟨hwidth, hafter⟩ := h.measure measurand
    obtain ⟨hwidths, hlast⟩ := ih hafter
    exact ⟨congrArg₂ List.cons hwidth hwidths, hlast⟩

end Faithful

/-- **Shortcuts in measuring.** Whatever was measured before, a text takes the cells of its
clusters, counted, remembered or added up, and printable ASCII has clusters of one code point and
one cell. A marked-up text takes the cells of the spans that the full scan finds in it, or is
refused for the fault that this scan shows. -/
theorem measureAll_fullWidth (history : List Measurand) :
    let (widths, memo) := empty.measureAll history
    widths = history.map Measurand.fullWidth ∧ memo.Faithful ∧
      (∀ text, Text.width text = sumNat ((Cluster.segment text).map Cluster.width) ∧
        (memo.measure (.content text)).1 = .ok (Text.width text)) ∧
      (∀ text, text.all Text.isPlain = true →
        Cluster.segment text = text.map ([·]) ∧ ∀ c ∈ text, Cluster.width [c] = 1) ∧
      (∀ text, Markup.parse text = Markup.parseTags text) ∧
      ∀ text, Markup.displayWidth text = (Markup.parseTags text).map Markup.spansWidth ∧
        (memo.measure (.markup text)).1 = Markup.displayWidth text := by
  obtain ⟨hwidths, hmemo⟩ := faithful_empty.measureAll history
  refine ⟨hwidths, hmemo, fun text => ⟨Text.width_eq_clusteredWidth text, ?_⟩, ?_,
    Markup.parse_eq_parseTags, fun text => ⟨Markup.displayWidth_eq_map text, ?_⟩⟩
  · rw [Text.width_eq_clusteredWidth]
    exact (hmemo.measure (.content text)).1
  · exact fun text => Cluster.segment_of_isPlain
  · rw [← Measurand.fullWidth_markup]
    exact (hmemo.measure (.markup text)).1

/-- An accented letter between tags, the letter alone, and a tag that is left open. -/
def accentedNotes : List Measurand :=
  [.markup ("[b]".toList ++ ['e', Char.ofNat 0x301] ++ "[/b]!".toList),
    .content ['e', Char.ofNat 0x301], .markup "[b]x".toList]

/-- The letter is found again where it stands alone, the sign behind it is counted, and the open tag
is at fault. -/
theorem measureAll_fullWidth_accentedNotes :
    let (widths, memo) := empty.measureAll accentedNotes
    widths = [.ok 2, .ok 1, .error ⟨.neverClosed, "[b]".toList, 0⟩] ∧
      memo.entries = [(['e', Char.ofNat 0x301], 1)] ∧ ['!'].all Text.isPlain = true ∧
      Cluster.segment ['!'] = [['!']] := by
  have hcounted : ['!'].all Text.isPlain = true := rfl
  obtain ⟨hwidths, _, _, hplain, _⟩ := measureAll_fullWidth accentedNotes
  have hfull : accentedNotes.map Measurand.fullWidth =
      [.ok 2, .ok 1, .error ⟨.neverClosed, "[b]".toList, 0⟩] := by decide +kernel
  exact ⟨hwidths.trans hfull, by decide +kernel, hcounted, (hplain ['!'] hcounted).1⟩

end WidthMemo

end TextGrid
