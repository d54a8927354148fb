import TextGrid.Proofs.KeptSpans
import TextGrid.Proofs.Shown

/-!
# Cuts of shown text

A cut of a marked-up text shows what a cut of its plain text would keep. `Text.fitting` cuts plain
text code point by code point; the slices of `Markup` follow it at both ends, wherever the tags
stand.
-/

namespace TextGrid

namespace Text

/-- The leading code points of a text that fit in `room` cells. With `force` the first one is taken
in any case. -/
def fitting : Bool → Int → Text → Text
  | _, _, [] => []
  | force, room, c :: rest =>
    if room < Cluster.charWidth c ∧ force = false then []
    else c :: fitting false (room - Cluster.charWidth c) rest

/-- The trailing code points of a text that fit in `room` cells. -/
def fittingEnd (room : Int) (text : Text) : Text :=
  (fitting false room text.reverse).reverse

/-- What fits at the start of a text is a prefix of it. -/
theorem fitting_isPrefix (force : Bool) (room : Int) (text : Text) :
    fitting force room text <+: text := by
  induction text generalizing force room with
  | nil => exact List.nil_prefix
  | cons c rest ih =>
    rw [fitting]
    split
    · exact List.nil_prefix
    · exact (List.prefix_cons_inj c).mpr (ih _ _)

/-- What fits at the end of a text is a suffix of it. -/
theorem fittingEnd_isSuffix (room : Int) (text : Text) : fittingEnd room text <:+ text := by
  have hinitial := fitting_isPrefix false room text.reverse
  rw [fittingEnd, ← List.reverse_prefix, List.reverse_reverse]
  exact hinitial

/-- What fits at the start of a text takes no more cells than there is room. -/
theorem cells_fitting_le {room : Int} (hroom : 0 ≤ room) (text : Text) :
    (cells (fitting false room text) : Int) ≤ room := by
  induction text generalizing room with
  | nil => simpa [fitting] using hroom
  | cons c rest ih =>
    rw [fitting]
    split
    · simpa using hroom
    · next hfits =>
      have hrest : 0 ≤ room - Cluster.charWidth c := by
        simp only [and_true] at hfits
        omega
      have hle := ih hrest
      rw [cells_cons]
      omega

/-- What fits at the end of a text takes no more cells than there is room. -/
theorem cells_fittingEnd_le {room : Int} (hroom : 0 ≤ room) (text : Text) :
    (cells (fittingEnd room text) : Int) ≤ room := by
  rw [fittingEnd, cells_reverse]
  exact cells_fitting_le hroom _

/-- A text that has room is kept whole. -/
theorem fitting_of_le (force : Bool) {room : Int} {text : Text} (h : (cells text : Int) ≤ room) :
    fitting force room text = text := by
  induction text generalizing force room with
  | nil => rfl
  | cons c rest ih =>
    rw [cells_cons] at h
    have hfits : ¬ (room < Cluster.charWidth c ∧ force = false) := by omega
    rw [fitting, if_neg hfits, ih false (by omega)]

/-- No prefix of a text that has room is longer than what is kept. -/
theorem isPrefix_fitting_of_le {part text : Text} (hpart : part <+: text) {room : Int}
    (hroom : (cells part : Int) ≤ room) : part <+: fitting false room text := by
  induction part generalizing text room with
  | nil => exact List.nil_prefix
  | cons c later ih =>
    obtain ⟨rest, rfl⟩ := hpart
    rw [cells_cons] at hroom
    have hfits : ¬ (room < Cluster.charWidth c ∧ false = false) := by omega
    rw [List.cons_append, fitting, if_neg hfits, List.prefix_cons_inj]
    exact ih (List.prefix_append later rest) (by omega)

/-- A cut goes on into a second part only when it keeps all of the first. -/
theorem fitting_append (force : Bool) (room : Int) (left right : Text) :
    fitting force room (left ++ right) =
      if fitting force room left = left then
        left ++ fitting (force && left.isEmpty) (room - cells left) right
      else fitting force room left := by
  induction left generalizing force room with
  | nil => simp [fitting]
  | cons c rest ih =>
    simp only [List.cons_append, fitting]
    split
    · simp
    · rw [ih]
      by_cases hrest : fitting false (room - Cluster.charWidth c) rest = rest
      · have hroom : room - Cluster.charWidth c - cells rest = room - cells (c :: rest) := by
          rw [cells_cons]
          omega
        simp [hrest, hroom]
      · simp [hrest]

/-- The end of a text fits before what stands in front of it. -/
theorem fittingEnd_append (room : Int) (left right : Text) :
    fittingEnd room (left ++ right) =
      if fittingEnd room right = right then fittingEnd (room - cells right) left ++ right
      else fittingEnd room right := by
  have happend := fitting_append false room right.reverse left.reverse
  rw [Bool.false_and, cells_reverse] at happend
  have hwhole : fitting false room right.reverse = right.reverse ↔
      fittingEnd room right = right := by
    rw [fittingEnd, ← List.reverse_inj, List.reverse_reverse]
  simp only [hwhole] at happend
  rw [fittingEnd, List.reverse_append, happend]
  split
  · simp [fittingEnd]
  · rfl

/-- What fits at the start of ordinary text is ordinary. -/
theorem IsOrdinary.fitting {text : Text} (h : IsOrdinary text) (force : Bool) (room : Int) :
    IsOrdinary (Text.fitting force room text) :=
  h.subset (fitting_isPrefix force room text).subset

/-- What fits at the end of ordinary text is ordinary. -/
theorem IsOrdinary.fittingEnd {text : Text} (h : IsOrdinary text) (room : Int) :
    IsOrdinary (Text.fittingEnd room text) :=
  h.subset (fittingEnd_isSuffix room text).subset

end Text

namespace Markup

/-! ### Cuts of clusters -/

/-- Of clusters of one code point as many fit as code points do. -/
theorem fit_map_singleton (width : Int) (force : Bool) (used : Nat) (text : Text) :
    fit width force used (text.map ([·])) =
      ((Text.fitting force (width - used) text).map ([·]),
        (text.drop (Text.fitting force (width - used) text).length).map ([·]),
        used + Text.cells (Text.fitting force (width - used) text)) := by
  induction text generalizing force used with
  | nil => simp [fit, Text.fitting]
  | cons c rest ih =>
    have hwidth : Cluster.width [c] = Cluster.charWidth c := rfl
    simp only [List.map_cons, fit, hwidth, Text.fitting]
    by_cases hfits : width - used < Cluster.charWidth c ∧ force = false
    · have hnext : width < (used + Cluster.charWidth c : Nat) ∧ force = false :=
        ⟨by omega, hfits.2⟩
      rw [if_pos hnext, if_pos hfits]
      simp
    · have hnext : ¬ (width < (used + Cluster.charWidth c : Nat) ∧ force = false) :=
        fun hover => hfits ⟨by omega, hover.2⟩
      have hroom : width - (used + Cluster.charWidth c : Nat) =
          width - used - Cluster.charWidth c := by omega
      rw [if_neg hnext, if_neg hfits, ih, hroom]
      simp [Nat.add_assoc]

/-- Clusters of one code point make up the text. -/
theorem flatten_map_singleton (text : Text) : (text.map ([·])).flatten = text := by
  induction text with
  | nil => rfl
  | cons c rest ih => simp [ih]

/-- A cut keeps all of a text or leaves some of it over. -/
theorem drop_fitting_eq_nil_iff (force : Bool) (room : Int) (text : Text) :
    text.drop (Text.fitting force room text).length = [] ↔
      Text.fitting force room text = text := by
  have hinitial := Text.fitting_isPrefix force room text
  rw [List.drop_eq_nil_iff]
  exact ⟨hinitial.eq_of_length_le, fun h => Nat.le_of_eq (congrArg List.length h.symm)⟩

/-! ### Cuts after the first code points -/

/-- What a cut with `used` cells already used makes of a span list: the head shows the code points
that fit. -/
structure Split.Follows (cut : Split) (force : Bool) (room : Int) (used : Nat)
    (spans : List Span) : Prop where
  head : plainText cut.head = Text.fitting force room (plainText spans)
  used : cut.used = used + Text.cells (plainText cut.head)

/-- A tag goes to the head and takes no cells. -/
theorem Split.Follows.cons_tag {cut : Split} {force : Bool} {room : Int} {used : Nat}
    {spans : List Span} {tag : Span} (htag : tag.isText = false)
    (h : cut.Follows force room used spans) :
    Split.Follows { cut with head := tag :: cut.head } force room used (tag :: spans) := by
  have hcontent := Span.content_of_tag htag
  exact ⟨by simp [hcontent, h.head], by simp [hcontent, h.used]⟩

/-- A text that fits goes to the head, and the cut goes on behind it. -/
theorem Split.Follows.cons_text {cut : Split} {force : Bool} {room : Int} {used : Nat}
    {spans : List Span} {content : Text} (hall : Text.fitting force room content = content)
    (h : cut.Follows (force && content.isEmpty) (room - Text.cells content)
      (used + Text.cells content) spans) :
    Split.Follows { cut with head := .text content :: cut.head } force room used
      (.text content :: spans) := by
  have hfitting := Text.fitting_append force room content (plainText spans)
  rw [if_pos hall] at hfitting
  exact ⟨by simp [Span.content, hfitting, h.head], by simp [Span.content, h.used, Nat.add_assoc]⟩

/-- A text that does not fit is cut itself, and all behind it is left. -/
theorem Split.Follows.of_cut {force : Bool} {room : Int} {content kept : Text} (used : Nat)
    (spans : List Span) (hkept : Text.fitting force room content = kept) (hcut : kept ≠ content) :
    Split.Follows ⟨if kept.isEmpty then [] else [.text kept],
      .text (content.drop kept.length) :: spans, used + Text.cells kept⟩ force room used
      (.text content :: spans) := by
  have hfitting := Text.fitting_append force room content (plainText spans)
  rw [hkept, if_neg hcut] at hfitting
  have hhead : plainText (if kept.isEmpty then [] else [Span.text kept]) = kept := by
    split <;> simp_all [Span.content]
  exact ⟨by rw [hhead, plainText_cons, Span.content, hfitting], by rw [hhead]⟩

/-- A split of ordinary text keeps what fits at its start. -/
theorem splitFrom_follows (width : Int) (force : Bool) (used : Nat) {spans : List Span}
    (h : Text.IsOrdinary (plainText spans)) :
    (splitFrom width force used spans).Follows (force && used == 0) (width - used) used spans := by
  induction spans generalizing used with
  | nil =>
    exact ⟨by simp [splitFrom, Text.fitting], by simp [splitFrom]⟩
  | cons span later ih =>
    rw [plainText_cons, Text.isOrdinary_append] at h
    cases span with
    | opening name => exact (ih used h.2).cons_tag rfl
    | closing name => exact (ih used h.2).cons_tag rfl
    | text content =>
      have hcontent : Text.IsOrdinary content := h.1
      have hnil := drop_fitting_eq_nil_iff (force && used == 0) (width - used) content
      rw [splitFrom, Cluster.segment_of_isOrdinary hcontent, fit_map_singleton]
      generalize hkept : Text.fitting (force && used == 0) (width - used) content = kept at hnil ⊢
      by_cases hwhole : kept = content
      · subst hwhole
        have hafter := ih (used + Text.cells kept) h.2
        have hforce : (force && used + Text.cells kept == 0) =
            ((force && used == 0) && kept.isEmpty) := by
          have hcells := hcontent.cells_eq_zero_iff
          by_cases hempty : kept = []
          · simp [hempty]
          · have hpos : Text.cells kept ≠ 0 := fun hzero => hempty (hcells.mp hzero)
            have hsum : used + Text.cells kept ≠ 0 := by omega
            rw [beq_eq_false_iff_ne.mpr hsum, List.isEmpty_eq_false_iff.mpr hempty, Bool.and_false,
              Bool.and_false]
        have hroom : width - (used + Text.cells kept : Nat) = width - used - Text.cells kept := by
          omega
        rw [hforce, hroom] at hafter
        simp only [List.drop_length, List.map_nil]
        exact hafter.cons_text hkept
      · have hcut := Split.Follows.of_cut used later hkept hwhole
        have hrest : content.drop kept.length ≠ [] := fun hdrop => hwhole (hnil.mp hdrop)
        generalize content.drop kept.length = rest at hcut hrest ⊢
        obtain ⟨c, others, rfl⟩ := List.exists_cons_of_ne_nil hrest
        simp only [List.map_cons, flatten_map_singleton, List.flatten_cons]
        exact hcut

/-! ### Cuts before the last code points -/

/-- What a cut at the end keeps of a span list: it shows the code points that fit. -/
structure Ending.Follows (last : Ending) (width : Int) (spans : List Span) : Prop where
  kept : plainText last.kept = Text.fittingEnd width (plainText spans)
  used : last.used = Text.cells (plainText last.kept)
  full : last.full = true ↔ plainText last.kept ≠ plainText spans

/-- Nothing before a cluster that does not fit is kept. -/
theorem Ending.Follows.cons_of_full {last : Ending} {width : Int} {spans : List Span}
    (h : last.Follows width spans) (hfull : last.full = true) (span : Span) :
    last.Follows width (span :: spans) := by
  have hshort := h.full.mp hfull
  have hcut : Text.fittingEnd width (plainText spans) ≠ plainText spans := by
    rw [← h.kept]
    exact hshort
  refine ⟨by rw [plainText_cons, Text.fittingEnd_append, if_neg hcut, h.kept], h.used, ?_⟩
  refine iff_of_true hfull fun heq => hshort ?_
  have hsuffix := Text.fittingEnd_isSuffix width (plainText spans)
  rw [← h.kept] at hsuffix
  refine hsuffix.eq_of_length_le ?_
  rw [heq, plainText_cons, List.length_append]
  omega

/-- A tag in front takes no room. -/
theorem Ending.Follows.cons_tag {last : Ending} {width : Int} {spans : List Span} {tag : Span}
    (htag : tag.isText = false) (h : last.Follows width spans) :
    Ending.Follows { last with kept := tag :: last.kept } width (tag :: spans) := by
  have hcontent := Span.content_of_tag htag
  exact ⟨by simp [hcontent, h.kept], by simp [hcontent, h.used], by simp [hcontent, h.full]⟩

/-- A text of which all later code points were kept is cut in turn. -/
theorem Ending.Follows.cons_text {last : Ending} {width : Int} {spans : List Span}
    (content : Text) (hfull : last.full = false) (h : last.Follows width spans) :
    let taken := Text.fitting false (width - last.used) content.reverse
    Ending.Follows
      ⟨if taken.isEmpty then last.kept else .text taken.reverse :: last.kept,
        last.used + Text.cells taken, !(content.reverse.drop taken.length).isEmpty⟩
      width (.text content :: spans) := by
  intro taken
  have hwhole : plainText last.kept = plainText spans := by
    by_contra hne
    exact absurd (h.full.mpr hne) (by simp [hfull])
  have hend : Text.fittingEnd width (plainText spans) = plainText spans := by
    rw [← h.kept, hwhole]
  have hnil := drop_fitting_eq_nil_iff false (width - last.used) content.reverse
  have hplain : plainText (if taken.isEmpty then last.kept else .text taken.reverse :: last.kept) =
      taken.reverse ++ plainText spans := by
    split <;> simp_all [Span.content]
  generalize (if taken.isEmpty then last.kept else .text taken.reverse :: last.kept) = kept at *
  exact
    { kept := by
        rw [hplain, plainText_cons, Span.content, Text.fittingEnd_append, if_pos hend, ← hwhole,
          ← h.used]
        rfl
      used := by
        rw [hplain, ← hwhole, Text.cells_append, Text.cells_reverse, ← h.used, Nat.add_comm]
      full := by
        rw [hplain, plainText_cons, Span.content, Ne, List.append_left_inj, ← List.reverse_inj,
          List.reverse_reverse, ← hnil, Bool.not_eq_true', List.isEmpty_eq_false_iff] }

/-- A slice at the end of ordinary text keeps what fits there. -/
theorem ending_follows (width : Int) {spans : List Span}
    (h : Text.IsOrdinary (plainText spans)) : (ending width spans).Follows width spans := by
  induction spans with
  | nil => exact ⟨rfl, rfl, by simp [ending]⟩
  | cons span later ih =>
    rw [plainText_cons, Text.isOrdinary_append] at h
    have hlater := ih h.2
    cases hfull : (ending width later).full with
    | true =>
      rw [ending_cons_of_full hfull]
      exact hlater.cons_of_full hfull span
    | false =>
      cases span with
      | opening name =>
        rw [ending_cons_tag hfull rfl]
        exact hlater.cons_tag rfl
      | closing name =>
        rw [ending_cons_tag hfull rfl]
        exact hlater.cons_tag rfl
      | text content =>
        have hcontent : Text.IsOrdinary content := h.1
        have htext := hlater.cons_text content hfull
        simp only [ending, hfull, Cluster.segment_of_isOrdinary hcontent, ← List.map_reverse,
          fit_map_singleton, List.isEmpty_map, flatten_map_singleton]
        exact htext

/-! ### Slices of legible spans -/

/-- A slice at the start of ordinary text shows what fits there, and takes as many cells. -/
theorem takePrefix_shows {spans : List Span} (h : Legible '[' spans)
    (hordinary : Text.IsOrdinary (plainText spans)) (width : Int) :
    ShowsWithout '[' (join (takePrefix spans width).spans)
        (Text.fitting false width (plainText spans)) ∧
      (takePrefix spans width).used =
        Text.cells (Text.fitting false width (plainText spans)) := by
  obtain ⟨hhead, hused⟩ := splitFrom_follows width false 0 hordinary
  have hroom : width - ((0 : Nat) : Int) = width := by omega
  rw [Bool.false_and, hroom] at hhead
  constructor
  · rw [← hhead]
    exact h.takePrefix_showsWithout (Or.inl rfl) width
  · rw [← hhead, takePrefix, split, hused, Nat.zero_add]

/-- A slice at the end of ordinary text shows what fits there. -/
theorem takeSuffix_shows {spans : List Span} (h : Legible '[' spans)
    (hordinary : Text.IsOrdinary (plainText spans)) (width : Int) :
    ShowsWithout '[' (join (takeSuffix spans width).spans)
      (Text.fittingEnd width (plainText spans)) := by
  rw [← (ending_follows width hordinary).kept]
  exact h.takeSuffix_showsWithout (Or.inl rfl) width

/-- A cut of ordinary text draws what fits at its start. -/
theorem Draws.cut {text plain : Text} (h : Draws text plain) (width : Int) :
    ∃ kept, cut text width = .ok kept ∧ Draws kept (Text.fitting false (max width 0) plain) := by
  obtain ⟨spans, hparse, hlegible, _, rfl⟩ := h.shows.exists_parse
  obtain ⟨hshows, _⟩ := takePrefix_shows hlegible h.ordinary (max width 0)
  exact ⟨_, by simp [Markup.cut, hparse], hshows, h.ordinary.fitting false _⟩

end Markup

end TextGrid
