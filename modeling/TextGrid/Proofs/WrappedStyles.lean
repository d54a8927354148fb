import TextGrid.Proofs.Results
import TextGrid.Proofs.Words

/-!
# Styles of wrapped text

Wrapping breaks a text at blanks and inside long words, closes the tags that are open where a line
ends, opens them again on the next line, and drops the pairs of tags that this leaves empty. Main
statement: read line after line, every code point that is no blank is still there, in the same order
and in the same styles.
-/

namespace TextGrid.Markup

/-- The styled code points that are no blanks. -/
def inked (spans : List Span) : List StyledChar :=
  (styled spans).filter (!Text.isBlank ·.1)

/-- Lists with the same marks have the same styled code points but for blanks. -/
theorem inked_congr {spans spans' : List Span} (h : marks spans = marks spans') :
    inked spans = inked spans' :=
  filter_styledFrom_congr h []

/-- What is seen of lines is what is seen of their styled code points. -/
theorem flatMap_inked (lines : List (List Span)) :
    lines.flatMap inked = (lines.flatMap styled).filter (!Text.isBlank ·.1) := by
  rw [List.filter_flatMap]
  rfl

/-- Whether a line is read as spans without opening brackets that look like others, but for
blanks. -/
def LooksLike (line : Text) (spans : List Span) : Prop :=
  ∃ found, parse line = .ok found ∧ '[' ∉ plainText found ∧ inked found = inked spans

/-- A line that is rebalanced behind opening tags looks like the line behind these tags. -/
theorem Reopens.looksLike {full line : List Span} (h : Reopens full line)
    (hbare : '[' ∉ plainText line) : LooksLike (join (rebalance full)) full := by
  obtain ⟨after, hrun⟩ := h.runs
  have hlegible : Legible '[' (rebalance full) :=
    legible_rebalance h.named (by rwa [h.plain]) hrun
  obtain ⟨found, hparse, hfound, hstyled⟩ := hlegible.styled_parse (Or.inl rfl)
  refine ⟨found, hparse, hfound, ?_⟩
  rw [inked, inked, hstyled, styled_rebalance_of_openAfter hrun]

/-- Spaces before a line do not change how it looks. -/
theorem LooksLike.indent {line : Text} {spans : List Span} (h : LooksLike line spans)
    (lead : Int) : LooksLike (Text.spaces lead ++ line) spans := by
  obtain ⟨found, hparse, hfound, hinked⟩ := h
  obtain ⟨rfl, hnested⟩ := parse_eq_ok_iff.mp hparse
  obtain ⟨hjoin, hnamed, _⟩ := scan_spec line
  have hspaces : ∀ c ∈ Text.spaces lead, c = ' ' := fun c hc => List.eq_of_mem_replicate hc
  have hlegible : Legible '[' (.text (Text.spaces lead) :: scan line) :=
    { named := List.forall_mem_cons.mpr ⟨rfl, hnamed⟩
      lacks := by
        rw [plainText_cons, List.mem_append, not_or]
        exact ⟨fun hmem => absurd (hspaces _ hmem) (by decide), hfound⟩
      nested := hnested }
  obtain ⟨found, hparse, hfound, hstyled⟩ := hlegible.styled_parse (Or.inl rfl)
  rw [join_cons, hjoin] at hparse
  refine ⟨found, hparse, hfound, ?_⟩
  have hblank : marks [.text (Text.spaces lead)] = [] := by
    have hnone : (Text.spaces lead).filter (!Text.isBlank ·) = [] := by
      apply List.filter_eq_nil_iff.mpr
      intro c hc
      rw [hspaces c hc]
      decide
    simp [Span.atoms, hnone]
  rw [← hinked, inked, hstyled]
  apply inked_congr
  rw [← List.singleton_append, marks_append, hblank, List.nil_append]

/-- Lines that keep legible spans look like lines that make up the whole. -/
theorem balanceLines_look {spans : List Span} {lines : List (List Span)} (h : Legible '[' spans)
    (hkeeps : Keeps lines.flatten spans) :
    ∃ fulls, List.Forall₂ LooksLike (balanceLines [] lines) fulls ∧
      fulls.flatMap inked = inked spans := by
  obtain ⟨fulls, htexts, hfulls, hstyled⟩ := balanceLines_of_tags h.named h.nested hkeeps.tags
  refine ⟨fulls, ?_, ?_⟩
  · rw [htexts, List.forall₂_map_left_iff, List.forall₂_same]
    intro full hfull
    obtain ⟨line, hline, hreopens⟩ := exists_mem_of_forall₂ hfulls.flip hfull
    exact Reopens.looksLike hreopens (hkeeps.lacks_of_mem (Or.inl rfl) h.lacks hline)
  · rw [flatMap_inked, hstyled]
    exact inked_congr hkeeps.marks

/-- An indent of the later lines does not change how lines look. -/
theorem indentRest_look {lines : List Text} {fulls : List (List Span)}
    (h : List.Forall₂ LooksLike lines fulls) (lead : Int) :
    List.Forall₂ LooksLike (indentRest (Text.spaces lead) lines) fulls := by
  cases h with
  | nil => exact .nil
  | cons hfirst hlater =>
    apply List.Forall₂.cons hfirst
    rw [List.forall₂_map_left_iff]
    exact hlater.imp fun line full hline => hline.indent lead

/-- Wrapping keeps every code point that is no blank, in its place among the others and in its
styles, and gives lines that are each well nested. -/
theorem wrapIndent_keeps_styles {text : Text} {spans : List Span} (hparse : parse text = .ok spans)
    (hbare : '[' ∉ plainText spans) (width indent : Int) :
    ∃ lines parsed, wrapIndent text width indent = .ok lines ∧ lines ≠ [] ∧
      lines.mapM parse = .ok parsed ∧ parsed.flatMap inked = inked spans := by
  obtain ⟨rfl, hnested⟩ := parse_eq_ok_iff.mp hparse
  obtain ⟨_, hnamed, _⟩ := scan_spec text
  obtain ⟨lead, packed, hwrap, hwords, _⟩ := wrapSpans_spec (scan text) width indent
  have hkeeps := hwords.trans (words_keeps (scan text))
  obtain ⟨fulls, hlooks, hinked⟩ := balanceLines_look ⟨hnamed, hbare, hnested⟩ hkeeps
  have hlines := indentRest_look hlooks lead
  rw [← hwrap] at hlines
  have hread : ∃ parsed, (wrapSpans (scan text) width indent).mapM parse = .ok parsed ∧
      List.Forall₂ (fun found full => inked found = inked full) parsed fulls := by
    apply exists_mapM_eq_ok hlines
    rintro line full ⟨found, hfound, _, hinkedLine⟩
    exact ⟨found, hfound, hinkedLine⟩
  obtain ⟨parsed, hparsed, hsame⟩ := hread
  refine ⟨wrapSpans (scan text) width indent, parsed, ?_, wrapSpans_ne_nil _ _ _, hparsed, ?_⟩
  · simp [wrapIndent, hparse]
  · have hmap : parsed.map inked = fulls.map inked := by
      rw [← List.forall₂_eq_eq_eq, List.forall₂_map_left_iff, List.forall₂_map_right_iff]
      exact hsame
    rw [← hinked, List.flatMap_def, hmap, List.flatMap_def]

/-- A text with tags on both sides of blanks and around a word that is too long for a line. -/
def crossedNote : Text :=
  "[a]x [b] yyyyy[/b][/a] [c]z [/c]w".toList

/-- A note whose tags cross line ends keeps the styles of what is seen. -/
theorem wrapIndent_keeps_styles_crossedNote :
    ∃ spans, parse crossedNote = .ok spans ∧ '[' ∉ plainText spans ∧
      ∃ lines parsed, wrapIndent crossedNote 3 1 = .ok lines ∧ lines ≠ [] ∧
        lines.mapM parse = .ok parsed ∧ parsed.flatMap inked = inked spans := by
  have hparse : parse crossedNote = .ok (scan crossedNote) := by decide +kernel
  have hbare : '[' ∉ plainText (scan crossedNote) := by decide +kernel
  exact ⟨_, hparse, hbare, wrapIndent_keeps_styles hparse hbare 3 1⟩

end TextGrid.Markup
