import TextGrid.Proofs.PlainTables

/-!
# Cells of well-nested markup

Cutting, truncating and wrapping never fail on well-nested markup. As long as texts and markers lack
one kind of bracket outside of their tags, they give well-nested markup again, and a cell is drawn
with well-nested lines (`cuts_spare`). With brackets of both kinds a cut may leave a tag that the
text did not have (`cut_unbalanced`).
-/

namespace TextGrid

namespace Markup

/-- Whether a text is well-nested markup. -/
def IsNested (text : Text) : Prop :=
  ∃ spans, parse text = .ok spans

namespace IsNested

variable {text : Text} (h : IsNested text)

include h

/-- Well-nested markup has a width. -/
theorem exists_displayWidth : ∃ width, displayWidth text = .ok width := by
  obtain ⟨spans, hparse⟩ := h
  exact ⟨spansWidth spans, displayWidth_of_parse hparse⟩

/-- A text that lacks a bracket can be cut. -/
theorem exists_cut (width : Int) : ∃ kept, cut text width = .ok kept := by
  obtain ⟨spans, hparse⟩ := h
  rw [cut, hparse]
  exact ⟨_, rfl⟩

/-- A text that lacks a bracket can be wrapped. -/
theorem exists_wrapIndent (width indent : Int) :
    ∃ lines, wrapIndent text width indent = .ok lines := by
  obtain ⟨spans, hparse⟩ := h
  rw [wrapIndent, hparse]
  exact ⟨_, rfl⟩

end IsNested

/-- Whether a text is well-nested markup without a bracket of one kind outside of its tags. -/
def Spares (bracket : Char) (text : Text) : Prop :=
  ∃ plain, ShowsWithout bracket text plain

variable {bracket : Char}

namespace Spares

/-- A text that spares a bracket is read as legible spans. -/
theorem exists_parse {text : Text} (h : Spares bracket text) :
    ∃ spans, parse text = .ok spans ∧ Legible bracket spans := by
  obtain ⟨plain, hshows⟩ := h
  obtain ⟨spans, hparse, hlegible, _⟩ := hshows.exists_parse
  exact ⟨spans, hparse, hlegible⟩

/-- A text that spares a bracket is well nested. -/
theorem isNested {text : Text} (h : Spares bracket text) : IsNested text := by
  obtain ⟨spans, hparse, _⟩ := h.exists_parse
  exact ⟨spans, hparse⟩

/-- A text that spares a bracket can be measured. -/
theorem exists_displayWidth {text : Text} (h : Spares bracket text) :
    ∃ width, displayWidth text = .ok width :=
  h.isNested.exists_displayWidth

/-- The empty text spares every bracket. -/
theorem nil : Spares bracket [] :=
  ⟨[], ShowsWithout.nil⟩

section Bracket

variable (hbracket : IsBracket bracket)

include hbracket

/-- Spaces spare every bracket. -/
theorem spaces (count : Int) : Spares bracket (Text.spaces count) :=
  ⟨_, ShowsWithout.spaces hbracket count⟩

/-- Texts that spare a bracket do so one behind the other. -/
theorem append {left right : Text} (hleft : Spares bracket left) (hright : Spares bracket right) :
    Spares bracket (left ++ right) := by
  obtain ⟨leftPlain, hleft⟩ := hleft
  obtain ⟨rightPlain, hright⟩ := hright
  exact ⟨_, hleft.append hbracket hright⟩

/-- A text spares a bracket in its tags as well. -/
theorem style {text name : Text} (h : Spares bracket text) (hname : isTagName name = true) :
    Spares bracket (Markup.style text name) := by
  obtain ⟨plain, hshows⟩ := h
  exact ⟨plain, hshows.style hbracket hname⟩

/-- A text that is cut stays well nested. -/
theorem cut {text : Text} (h : Spares bracket text) (width : Int) :
    ∃ kept, Markup.cut text width = .ok kept ∧ Spares bracket kept := by
  obtain ⟨spans, hparse, hlegible⟩ := h.exists_parse
  refine ⟨_, ?_, _, hlegible.takePrefix_showsWithout hbracket (max width 0)⟩
  rw [Markup.cut, hparse]
  rfl

end Bracket

end Spares

/-! ### Wrapped text -/

section Wrapped

variable (hbracket : IsBracket bracket) {spans : List Span} (h : Legible bracket spans)

include hbracket h

/-- Balanced lines of what is kept of legible spans spare the bracket. -/
theorem Legible.balanceLines_spare {lines : List (List Span)} (hkeeps : Keeps lines.flatten spans) :
    ∀ line ∈ balanceLines [] lines, Spares bracket line := by
  intro text htext
  have hbalances := h.balanceLines_balances hkeeps.tags
  obtain ⟨line, hline, hbalanced⟩ := exists_mem_of_forall₂ hbalances.flip htext
  exact ⟨_, Balances.showsWithout hbracket hbalanced (hkeeps.lacks_of_mem hbracket h.lacks hline)⟩

/-- The lines of legible spans are well nested behind their lead. -/
theorem Legible.wrapSpans_spares (width indent : Int) :
    ∃ lead lines, wrapSpans spans width indent = indentRest (Text.spaces lead) lines ∧
      (∀ line ∈ lines, Spares bracket line) ∧ (0 < width → indent < width → lead = indent) := by
  obtain ⟨lead, lines, hwrap, hwords, _, hlead⟩ := wrapSpans_spec spans width indent
  have hkeeps := hwords.trans (words_keeps spans)
  exact ⟨lead, _, hwrap, h.balanceLines_spare hbracket hkeeps, hlead⟩

end Wrapped

/-- The lines of a wrapped text are well nested. -/
theorem Spares.wrapIndent (hbracket : IsBracket bracket) {text : Text} (h : Spares bracket text)
    (width indent : Int) :
    ∃ lines, wrapIndent text width indent = .ok lines ∧ ∀ line ∈ lines, Spares bracket line := by
  obtain ⟨spans, hparse, hlegible⟩ := h.exists_parse
  obtain ⟨lead, lines, hwrap, hlines, _⟩ := hlegible.wrapSpans_spares hbracket width indent
  refine ⟨indentRest (Text.spaces lead) lines, by simp [Markup.wrapIndent, hparse, hwrap], ?_⟩
  intro text htext
  obtain ⟨line, hline, rfl | rfl⟩ := exists_of_mem_indentRest htext
  · exact hlines text hline
  · exact (Spares.spaces hbracket lead).append hbracket (hlines line hline)

end Markup

/-- Whether the values of an overflow rule are of the kinds that it asks for: a marker that lacks a
bracket, or an indent that is no fraction. -/
def Overflow.Spares (bracket : Char) : Overflow → Prop
  | truncate _ marker => ∃ text, marker = .text text ∧ Markup.Spares bracket text
  | wrap indent => ∀ number, indent.bare ≠ .float number
  | clip | expand => True

namespace Cell

open Markup

/-- Well-nested text can be truncated with a well-nested marker. -/
theorem exists_truncate {text marker : Text} (h : IsNested text) (hmarker : IsNested marker)
    (width : Int) (edge : Edge) : ∃ short, truncate text width edge marker = .ok short := by
  obtain ⟨spans, hparse⟩ := h
  obtain ⟨markerWidth, hmarkerWidth⟩ := hmarker.exists_displayWidth
  rw [truncate, hparse, ok_bind]
  split
  · exact ⟨text, rfl⟩
  · rw [hmarkerWidth, ok_bind]
    cases edge <;> exact ⟨_, rfl⟩

section Drawn

variable {bracket : Char} (hbracket : IsBracket bracket)

include hbracket

/-- A truncated text is well nested, with its marker. -/
theorem truncate_spares {text marker : Text} (h : Spares bracket text)
    (hmarker : Spares bracket marker) (width : Int) (edge : Edge) :
    ∃ short, truncate text width edge marker = .ok short ∧ Spares bracket short := by
  obtain ⟨spans, hparse, hlegible⟩ := h.exists_parse
  obtain ⟨markerWidth, hmarkerWidth⟩ := hmarker.exists_displayWidth
  have hhead : ∀ room : Int, Spares bracket (join (takePrefix spans room).spans) :=
    fun room => ⟨_, hlegible.takePrefix_showsWithout hbracket room⟩
  have htail : ∀ room : Int, Spares bracket (join (takeSuffix spans room).spans) :=
    fun room => ⟨_, hlegible.takeSuffix_showsWithout hbracket room⟩
  rw [truncate, hparse, ok_bind]
  split
  · exact ⟨text, rfl, h⟩
  · rw [hmarkerWidth, ok_bind]
    generalize hshort : (if (markerWidth : Int) > width then (([] : Text), (0 : Nat))
      else (marker, markerWidth)) = short
    have hspares : Spares bracket short.1 := by
      rw [← hshort]
      split
      · exact Spares.nil
      · exact hmarker
    cases edge with
    | start => exact ⟨_, rfl, hspares.append hbracket (htail _)⟩
    | finish => exact ⟨_, rfl, (hhead _).append hbracket hspares⟩
    | middle => exact ⟨_, rfl, ((hhead _).append hbracket hspares).append hbracket (htail _)⟩

/-- Filling up a text spares the bracket. -/
theorem pad_spares {content : Text} (h : Spares bracket content) (anchor : Anchor) (width : Int) :
    ∃ filled, pad anchor content width = .ok filled ∧ Spares bracket filled := by
  obtain ⟨used, hused⟩ := h.exists_displayWidth
  have hspaces := Spares.spaces hbracket (width - used)
  cases anchor with
  | left => exact ⟨_, padRight_eq hused width, h.append hbracket hspaces⟩
  | right => exact ⟨_, padLeft_eq hused width, hspaces.append hbracket h⟩

/-- A text in the style of a cell spares the bracket. -/
theorem styled_spares {content : Text} (h : Spares bracket content) {tag : Option Text}
    (htag : ∀ name, tag = some name → isTagName name = true) :
    Spares bracket (styled content tag) := by
  cases tag with
  | none => exact h
  | some name => exact h.style hbracket (htag name rfl)

/-- A line of a wrapped cell is drawn and spares the bracket. -/
theorem wrappedLine_spares {line : Text} (h : Spares bracket line) {tag : Option Text}
    (htag : ∀ name, tag = some name → isTagName name = true) (anchor : Anchor)
    (width count : Int) :
    ∃ drawn, wrappedLine anchor tag width (Text.spaces count) (Text.spaces count ++ line) =
        .ok drawn ∧ Spares bracket drawn := by
  obtain ⟨used, hused⟩ := h.exists_displayWidth
  generalize hroom : width - ((Text.spaces count).length : Int) = room
  have hbody : ∃ body, (if room < used then Markup.cut line room else pure line) = .ok body ∧
      Spares bracket body := by
    split
    · exact h.cut hbracket room
    · exact ⟨line, rfl, h⟩
  obtain ⟨body, hcut, hbody⟩ := hbody
  obtain ⟨filled, hpad, hfilled⟩ :=
    pad_spares hbracket (styled_spares hbracket hbody htag) anchor room
  exact ⟨Text.spaces count ++ filled, wrappedLine_eq_ok hroom hused hcut hpad,
    (Spares.spaces hbracket count).append hbracket hfilled⟩

/-- The lines of a wrapped cell are drawn and spare the bracket. -/
theorem wrappedLines_spare {text : Text} (h : Spares bracket text) {tag : Option Text}
    (htag : ∀ name, tag = some name → isTagName name = true) (anchor : Anchor) {width : Int}
    (hwidth : 0 < width) (indent : Int) :
    ∃ lines, wrappedLines anchor tag width indent text = .ok lines ∧
      ∀ line ∈ lines, Spares bracket line := by
  obtain ⟨spans, hparse, hlegible⟩ := h.exists_parse
  generalize hkept : (if indent < width then indent else 0) = kept
  have hkeptLt := keptIndent_lt hwidth indent
  rw [hkept] at hkeptLt
  obtain ⟨lead, lines, hwrap, hlines, hlead⟩ := hlegible.wrapSpans_spares hbracket width kept
  obtain rfl := hlead hwidth hkeptLt
  have hindent : wrapIndent text width lead = .ok (indentRest (Text.spaces lead) lines) := by
    rw [← hwrap]
    simp [wrapIndent, hparse]
  cases lines with
  | nil => exact ⟨[], by simp only [wrappedLines, hkept, hindent, ok_bind]; rfl, by simp⟩
  | cons first later =>
    obtain ⟨hfirst, hlater⟩ := List.forall_mem_cons.mp hlines
    obtain ⟨head, hhead, hheadSpares⟩ := wrappedLine_spares hbracket hfirst htag anchor width 0
    have hrest : ∃ rest, later.mapM (fun line =>
          wrappedLine anchor tag width (Text.spaces lead) (Text.spaces lead ++ line)) = .ok rest ∧
        ∀ line ∈ rest, Spares bracket line :=
      exists_mapM_forall_mem fun line hline =>
        wrappedLine_spares hbracket (hlater line hline) htag anchor width lead
    obtain ⟨rest, hrest, hrestSpares⟩ := hrest
    exact ⟨head :: rest, wrappedLines_eq_ok hkept hindent hhead hrest,
      List.forall_mem_cons.mpr ⟨hheadSpares, hrestSpares⟩⟩

/-- A cell that keeps its content whole is drawn and spares the bracket. -/
theorem drawWhole_spares {text : Text} (h : Spares bracket text) (column : Column)
    (width index : Int) :
    ∃ cell, drawWhole column width index text = .ok cell ∧
      ∀ line ∈ cell.lines, Spares bracket line := by
  have hcontent : Spares bracket (styled text (styleName? column text)) :=
    styled_spares hbracket h fun name hname => isTagName_of_styleName? hname
  obtain ⟨used, hused⟩ := hcontent.exists_displayWidth
  obtain ⟨filled, hpad, hfilled⟩ := pad_spares hbracket hcontent column.anchor (max width used)
  refine ⟨⟨index, max width used, [filled]⟩, ?_, by simpa using hfilled⟩
  simp only [drawWhole, hused, ok_bind, hpad]
  rfl

/-- The lines of a cell that keeps to its box are drawn and spare the bracket. -/
theorem boxLines_spare {text : Text} (h : Spares bracket text) {column : Column}
    (hcolumn : column.overflow.Spares bracket) {width : Int} (hwidth : 0 < width) :
    ∃ lines, boxLines column width text = .ok lines ∧ ∀ line ∈ lines, Spares bracket line := by
  have htag : ∀ name, styleName? column text = some name → isTagName name = true :=
    fun name hname => isTagName_of_styleName? hname
  -- Text that is not wrapped is cut first, then styled and filled up as one line.
  have hline : ∀ short, Spares bracket short →
      ∃ lines, (do return [← Markup.lift (pad column.anchor (styled short (styleName? column text))
          width)] : Except LayoutError (List Text)) = .ok lines ∧
        ∀ line ∈ lines, Spares bracket line := by
    intro short hshort
    obtain ⟨filled, hpad, hfilled⟩ :=
      pad_spares hbracket (styled_spares hbracket hshort htag) column.anchor width
    exact ⟨[filled], by rw [hpad]; rfl, by simpa using hfilled⟩
  unfold boxLines
  cases hoverflow : column.overflow with
  | wrap indent =>
    rw [hoverflow] at hcolumn
    obtain ⟨lines, hwrap, hlines⟩ :=
      wrappedLines_spare hbracket h htag column.anchor hwidth (indent.floor?.getD 0)
    refine ⟨lines, ?_, hlines⟩
    simp only [indentFor_eq_ok hcolumn, ok_bind, hwrap]
    rfl
  | truncate edge marker =>
    rw [hoverflow] at hcolumn
    obtain ⟨markerText, rfl, hmarker⟩ := hcolumn
    obtain ⟨short, htruncate, hshort⟩ := truncate_spares hbracket h hmarker width edge
    simpa [truncateMarked, htruncate] using hline short hshort
  | clip =>
    obtain ⟨short, htruncate, hshort⟩ := truncate_spares hbracket h Spares.nil width .finish
    simpa [htruncate] using hline short hshort
  | expand =>
    obtain ⟨short, htruncate, hshort⟩ := truncate_spares hbracket h Spares.nil width .finish
    simpa [htruncate] using hline short hshort

/-- A text is drawn into well-nested lines. -/
theorem draw_spares {text : Text} (h : Spares bracket text) {column : Column}
    (hcolumn : column.overflow.Spares bracket) (width index : Int) :
    ∃ cell, draw text column width index = .ok cell ∧
      ∀ line ∈ cell.lines, Spares bracket line := by
  unfold draw
  by_cases hexpand : column.isExpand = true
  · rw [if_pos hexpand]
    obtain ⟨cell, hdraw, hcell⟩ := drawWhole_spares hbracket h column width index
    exact ⟨cell, by rw [hdraw]; rfl, hcell⟩
  · rw [if_neg hexpand]
    by_cases hwidth : width ≤ 0
    · rw [if_pos hwidth]
      obtain ⟨used, hused⟩ := h.exists_displayWidth
      refine ⟨⟨index, 0, [[]]⟩, by rw [hused]; rfl, ?_⟩
      intro line hline
      obtain rfl := List.mem_singleton.mp hline
      exact Spares.nil
    · rw [if_neg hwidth]
      obtain ⟨lines, hbox, hlines⟩ := boxLines_spare hbracket h hcolumn (by omega : 0 < width)
      exact ⟨⟨index, width, lines⟩, by rw [hbox]; rfl, hlines⟩

/-- Well-nested text is cut, truncated with a well-nested marker and wrapped without fail, at any
width and edge and with any indent. What lacks a bracket stays well nested, and is drawn with
well-nested lines. -/
theorem cuts_spare {text marker : Text} (htext : IsNested text) (hmarker : IsNested marker)
    (column : Column) (width indent index : Int) (edge : Edge) :
    (∃ kept, Markup.cut text width = .ok kept ∧ (Spares bracket text → Spares bracket kept)) ∧
      (∃ short, truncate text width edge marker = .ok short ∧
        (Spares bracket text → Spares bracket marker → Spares bracket short)) ∧
      (∃ lines, Markup.wrapIndent text width indent = .ok lines ∧
        (Spares bracket text → ∀ line ∈ lines, Spares bracket line)) ∧
      (Spares bracket text → column.overflow.Spares bracket →
        ∃ cell, format (.text text) column width index = .ok cell ∧
          ∀ line ∈ cell.lines, Spares bracket line) := by
  obtain ⟨kept, hcut⟩ := htext.exists_cut width
  obtain ⟨short, htruncate⟩ := exists_truncate htext hmarker width edge
  obtain ⟨lines, hwrap⟩ := htext.exists_wrapIndent width indent
  refine ⟨⟨kept, hcut, ?_⟩, ⟨short, htruncate, ?_⟩, ⟨lines, hwrap, ?_⟩, ?_⟩
  · intro hspares
    exact of_eq_ok hcut (hspares.cut hbracket width)
  · intro hspares hspare
    exact of_eq_ok htruncate (truncate_spares hbracket hspares hspare width edge)
  · intro hspares
    exact of_eq_ok hwrap (hspares.wrapIndent hbracket width indent)
  · intro hspares hcolumn
    exact draw_spares hbracket hspares hcolumn width index

end Drawn

/-- A styled note with a closing bracket of its own. -/
def closingNote : Text :=
  Markup.style ['a', ']', ' ', 'n', 'o', 't', 'e', ' ', 'o', 'n', ' ', 'i', 't'] ['b']

/-- The closing note spares the opening bracket. -/
theorem spares_closingNote : Spares '[' closingNote :=
  ⟨['a', ']', ' ', 'n', 'o', 't', 'e', ' ', 'o', 'n', ' ', 'i', 't'], by decide +kernel, by decide⟩

/-- The default marker spares the opening bracket. -/
theorem spares_defaultMarker : Spares '[' defaultMarker :=
  ⟨defaultMarker, by decide +kernel, by decide⟩

/-- The columns of names and notes spare the opening bracket. -/
theorem spares_overflow_notes : ∀ column ∈ Spec.notes.columns, column.overflow.Spares '[' := by
  have hnames : Column.names.overflow.Spares '[' := ⟨defaultMarker, rfl, spares_defaultMarker⟩
  have hnotes : Column.notes.overflow.Spares '[' := fun number hnumber => by cases hnumber
  simpa [Spec.notes] using ⟨hnames, hnotes⟩

/-- The closing note is cut, truncated, wrapped and drawn without an opening bracket. -/
theorem cuts_spare_closingNote :
    IsBracket '[' ∧ Spares '[' closingNote ∧ Spares '[' defaultMarker ∧
      Column.notes.overflow.Spares '[' ∧
      (∃ kept, Markup.cut closingNote 3 = .ok kept ∧ Spares '[' kept) ∧
      (∃ short, truncate closingNote 3 .middle defaultMarker = .ok short ∧ Spares '[' short) ∧
      (∃ lines, Markup.wrapIndent closingNote 3 1 = .ok lines ∧
        ∀ line ∈ lines, Spares '[' line) ∧
      ∃ cell, format (.text closingNote) Column.notes 3 1 = .ok cell ∧
        ∀ line ∈ cell.lines, Spares '[' line := by
  have hbracket : IsBracket '[' := Or.inl rfl
  have hnote := spares_closingNote
  have hmarker := spares_defaultMarker
  have hcolumn : Column.notes.overflow.Spares '[' := spares_overflow_notes _ (by simp [Spec.notes])
  obtain ⟨⟨kept, hcut, hkept⟩, ⟨short, htruncate, hshort⟩, ⟨lines, hwrap, hlines⟩, hdraw⟩ :=
    cuts_spare hbracket hnote.isNested hmarker.isNested Column.notes 3 1 1 .middle
  exact ⟨hbracket, hnote, hmarker, hcolumn, ⟨kept, hcut, hkept hnote⟩,
    ⟨short, htruncate, hshort hnote hmarker⟩, ⟨lines, hwrap, hlines hnote⟩, hdraw hnote hcolumn⟩

/-- A bracket before and one behind a pair of tags with nothing between them. -/
def glued : Text := ['[', 'a', '[', 'b', ']', '[', '/', 'b', ']', ']']

/-- With both brackets a cut that drops a pair of tags leaves a tag that was none: the text is well
nested, and what is cut from it is not. -/
theorem cut_unbalanced :
    Markup.parse glued = .ok [.text ['[', 'a'], .opening ['b'], .closing ['b'], .text [']']] ∧
      Markup.cut glued 10 = .ok ['[', 'a', ']'] ∧
      Markup.parse ['[', 'a', ']'] = .error ⟨.neverClosed, ['[', 'a', ']'], 0⟩ ∧
      format (.text glued) Column.notes 6 0 =
        .error (.markup ⟨.neverClosed, ['[', 'a', ']'], 0⟩) := by
  decide +kernel

end Cell

end TextGrid
