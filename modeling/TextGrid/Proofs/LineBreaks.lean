import TextGrid.Proofs.BalancedRows
import TextGrid.Proofs.WideTables

/-!
# Line breaks

The lines of some rows are put one below the other with line breaks between them, and are found
again as long as none of them has a line break of its own. Line breaks take no cells, so no check of
a width finds them. Wrapped text ends a word at a line break as at any blank, but every other
overflow rule draws a text that fits with its line breaks (`draw_isLine_iff`), and a row is then
broken (`rows_broken`). Main statement: rows whose decorations, markers and texts have no line
breaks are lines, whatever the texts of wrapped columns have.
-/

namespace TextGrid

namespace Text

/-- Whether a text has no line break. -/
def IsLine (text : Text) : Prop :=
  '\n' ∉ text

instance (text : Text) : Decidable (IsLine text) :=
  inferInstanceAs (Decidable ('\n' ∉ text))

/-- The empty text has no line break. -/
@[simp] theorem isLine_nil : IsLine [] := by
  simp [IsLine]

/-- Two texts are one line together if each of them is one. -/
@[simp] theorem isLine_append {left right : Text} :
    IsLine (left ++ right) ↔ IsLine left ∧ IsLine right := by
  simp [IsLine]

/-- Spaces have no line break. -/
@[simp] theorem isLine_spaces (count : Int) : IsLine (spaces count) := by
  intro hmem
  exact absurd (List.eq_of_mem_replicate hmem) (by decide)

namespace IsLine

/-- A text of code points of a line is a line. -/
theorem of_subset {part text : Text} (h : IsLine text) (hpart : part ⊆ text) : IsLine part :=
  fun hmem => h (hpart hmem)

/-- Lines are one line when one is put behind the other. -/
theorem append {left right : Text} (hleft : IsLine left) (hright : IsLine right) :
    IsLine (left ++ right) :=
  isLine_append.mpr ⟨hleft, hright⟩

/-- A line is one line when it is repeated. -/
theorem repeated {text : Text} (h : IsLine text) (count : Int) : IsLine (text.repeated count) :=
  repeated_of_append isLine_nil append h count

/-- Lines are one line when they are joined by a separator that is one. -/
theorem joined {separator : Text} (hseparator : IsLine separator) {parts : List Text}
    (hparts : ∀ part ∈ parts, IsLine part) : IsLine (Text.joined separator parts) :=
  joined_of_append isLine_nil append hseparator hparts

end IsLine

/-! ### Splitting -/

/-- Splitting a text is splitting a list at an item. -/
theorem splitAt_eq_splitOn (separator : Char) (text : Text) :
    splitAt separator text = text.splitOn separator := by
  induction text with
  | nil => rfl
  | cons c later ih =>
    obtain ⟨piece, pieces, hlater⟩ :=
      List.exists_cons_of_ne_nil (List.splitOn_ne_nil separator later)
    rw [splitAt, ih, List.splitOn_cons_eq_if_modifyHead, hlater]
    simp only [beq_iff_eq]
    rfl

/-- Texts without the separator are found again between its occurrences. -/
theorem splitAt_joined {separator : Char} {parts : List Text}
    (hparts : ∀ part ∈ parts, separator ∉ part) (hne : parts ≠ []) :
    splitAt separator (joined [separator] parts) = parts := by
  rw [splitAt_eq_splitOn, joined, List.splitOn_intercalate separator hparts hne]

end Text

open Text

namespace Markup

/-! ### Marked-up lines -/

/-- A tag name has no line break. -/
theorem isLine_of_isTagName {name : Text} (h : isTagName name = true) : IsLine name := by
  intro hmem
  exact absurd (isNameChar_of_mem h hmem) (by decide)

/-- Tags have no line breaks. -/
theorem isLine_print_iff {span : Span} (hnamed : span.isNamed = true) :
    IsLine span.print ↔ IsLine span.content := by
  cases span with
  | text content => rfl
  | opening name => simpa [Span.print, Span.content, IsLine] using isLine_of_isTagName hnamed
  | closing name => simpa [Span.print, Span.content, IsLine] using isLine_of_isTagName hnamed

/-- Spans are written without line breaks if their text has none. -/
theorem isLine_join_iff {spans : List Span} (hnamed : ∀ span ∈ spans, span.isNamed = true) :
    IsLine (join spans) ↔ IsLine (plainText spans) := by
  induction spans with
  | nil => simp
  | cons span later ih =>
    obtain ⟨hspan, hlater⟩ := List.forall_mem_cons.mp hnamed
    rw [join_cons, plainText_cons, isLine_append, isLine_append, isLine_print_iff hspan, ih hlater]

/-- A rebalanced slice is written without line breaks if its text has none. -/
theorem isLine_rebalance_iff {spans : List Span} (hnamed : ∀ span ∈ spans, span.isNamed = true) :
    IsLine (join (rebalance spans)) ↔ IsLine (plainText spans) := by
  rw [isLine_join_iff (isNamed_of_mem_rebalance hnamed), plainText_rebalance]

/-- The style of a cell adds no line break. -/
theorem isLine_styled_iff {content : Text} {tag : Option Text}
    (htag : ∀ name, tag = some name → isTagName name = true) :
    IsLine (Cell.styled content tag) ↔ IsLine content := by
  cases tag with
  | none => rfl
  | some name =>
    rw [Cell.styled, style]
    split
    · rfl
    · have hname : Span.isNamed (.opening name) = true := htag name rfl
      have hclosed : Span.isNamed (.closing name) = true := htag name rfl
      have hopening : IsLine (Span.opening name).print := (isLine_print_iff hname).mpr isLine_nil
      have hclosing : IsLine (Span.closing name).print := (isLine_print_iff hclosed).mpr isLine_nil
      simp [hopening, hclosing]

/-! ### Slices of lines -/

section Slices

variable {text : Text} {spans : List Span} (hline : IsLine text) (hparse : parse text = .ok spans)

include hline hparse

/-- A part of the spans of a line is a line once it is rebalanced. -/
theorem isLine_rebalance_part {part : List Span} (htags : tags part ⊆ tags spans)
    (hplain : plainText part ⊆ plainText spans) : IsLine (join (rebalance part)) := by
  obtain ⟨rfl, _⟩ := parse_eq_ok_iff.mp hparse
  obtain ⟨hjoin, hnamed, _⟩ := scan_spec text
  have hwhole := (isLine_join_iff hnamed).mp (by rwa [hjoin])
  rw [isLine_rebalance_iff (isNamed_of_tags_subset hnamed htags)]
  exact hwhole.of_subset hplain

/-- A slice at the start of a line is a line. -/
theorem isLine_takePrefix (width : Int) : IsLine (join (takePrefix spans width).spans) := by
  obtain ⟨htags, hplain⟩ := split_head_subset width false spans
  exact isLine_rebalance_part hline hparse htags hplain

/-- A slice at the end of a line is a line. -/
theorem isLine_takeSuffix (width : Int) : IsLine (join (takeSuffix spans width).spans) := by
  obtain ⟨⟨dropped, htags, _⟩, hplain⟩ := ending_part width spans
  apply isLine_rebalance_part hline hparse _ hplain
  rw [htags]
  exact List.subset_append_right _ _

end Slices

/-- A cut of a line is a line. -/
theorem isLine_cut {text kept : Text} {width : Int} (hline : IsLine text)
    (hcut : cut text width = .ok kept) : IsLine kept := by
  obtain ⟨spans, hparse, hkept⟩ := bind_eq_ok_iff.mp hcut
  obtain rfl := Except.ok.inj hkept
  exact isLine_takePrefix hline hparse _

/-- Lines that keep words are lines once they are balanced. A line break is a blank, and the only
blanks between words are spaces. -/
theorem isLine_of_mem_balanceLines {text : Text} {lines : List (List Span)}
    (hnested : openAfter [] (scan text) = some [])
    (hwords : Keeps lines.flatten (words (scan text)).flatten) :
    ∀ line ∈ balanceLines [] lines, IsLine line := by
  obtain ⟨_, hnamed, _⟩ := scan_spec text
  have htags := (hwords.trans (words_keeps (scan text))).tags
  obtain ⟨fulls, hbalanced, hfulls, _⟩ := balanceLines_of_tags hnamed hnested htags
  intro line hline
  rw [hbalanced] at hline
  obtain ⟨full, hfull, rfl⟩ := List.mem_map.mp hline
  obtain ⟨part, hpart, hreopens⟩ := exists_mem_of_forall₂ hfulls.flip hfull
  rw [isLine_rebalance_iff hreopens.named, hreopens.plain]
  intro hbreak
  have hmem : '\n' ∈ plainText lines.flatten := by
    rw [plainText_flatten]
    exact List.mem_flatten.mpr ⟨_, List.mem_map_of_mem hpart, hbreak⟩
  rcases hwords.text _ hmem with hspace | hword
  · exact absurd hspace (by decide)
  · exact absurd (of_mem_plainText_words hword).2 (by decide)

/-- Wrapped text has no line breaks but those between its lines. -/
theorem isLine_of_mem_wrapIndent {text : Text} {width indent : Int} {lines : List Text}
    (h : wrapIndent text width indent = .ok lines) : ∀ line ∈ lines, IsLine line := by
  obtain ⟨spans, hparse, hlines⟩ := bind_eq_ok_iff.mp h
  obtain rfl := Except.ok.inj hlines
  obtain ⟨rfl, hnested⟩ := parse_eq_ok_iff.mp hparse
  obtain ⟨lead, packed, hwrap, hwords, _⟩ := wrapSpans_spec (scan text) width indent
  have hbalanced := isLine_of_mem_balanceLines hnested hwords
  intro line hline
  rw [hwrap] at hline
  obtain ⟨part, hpart, rfl | rfl⟩ := exists_of_mem_indentRest hline
  · exact hbalanced line hpart
  · exact (isLine_spaces lead).append (hbalanced part hpart)

end Markup

/-! ### Cells -/

/-- Whether neither the text nor the marker that a rule may draw has a line break. No line break of
a wrapped text is drawn. -/
def Overflow.GivesLines : Overflow → Text → Prop
  | truncate _ marker, text => IsLine text ∧ ∀ content, marker.text? = some content → IsLine content
  | clip, text | expand, text => IsLine text
  | wrap _, _ => True

namespace Cell

open Markup

/-- Filling up a text adds no line break. -/
theorem isLine_fill_iff {anchor : Anchor} {content : Text} {count : Int} :
    IsLine (anchor.fill content count) ↔ IsLine content := by
  cases anchor with
  | left => simp [Anchor.fill]
  | right => simp [Anchor.fill]

/-- A line is filled without line breaks, so it has those of what it shows. -/
theorem Fills.isLine_iff {anchor : Anchor} {tag : Option Text} {box : Int} {shown : Text × Text}
    {line : Text} (h : Fills anchor tag box shown line)
    (htag : ∀ name, tag = some name → isTagName name = true) :
    IsLine line ↔ IsLine shown.1 ∧ IsLine shown.2 := by
  obtain ⟨used, _, rfl⟩ := h
  rw [isLine_append, isLine_fill_iff, isLine_styled_iff htag]

/-- A truncated line with a marker that is a line is a line. -/
theorem isLine_truncate {text marker content : Text} {width : Int} {edge : Edge}
    (htext : IsLine text) (hmarker : IsLine marker)
    (h : truncate text width edge marker = .ok content) : IsLine content := by
  obtain ⟨spans, hparse, hcontent⟩ := bind_eq_ok_iff.mp h
  split at hcontent
  · obtain rfl := Except.ok.inj hcontent
    exact htext
  · obtain ⟨markerWidth, _, hcut⟩ := bind_eq_ok_iff.mp hcontent
    have hstarts := isLine_takePrefix htext hparse
    have hends := isLine_takeSuffix htext hparse
    have hkept : IsLine (if markerWidth > width then (([], 0) : Text × Nat)
        else (marker, markerWidth)).1 := by
      split
      · exact isLine_nil
      · exact hmarker
    cases edge with
    | start =>
      obtain rfl := Except.ok.inj hcut
      exact hkept.append (hends _)
    | middle =>
      obtain rfl := Except.ok.inj hcut
      exact ((hstarts _).append hkept).append (hends _)
    | finish =>
      obtain rfl := Except.ok.inj hcut
      exact (hstarts _).append hkept

/-- A line that is truncated stays a line, if its marker is one wherever it is a text. -/
theorem isLine_truncateMarked {text content : Text} {width : Int} {edge : Edge} {marker : Value}
    (htext : IsLine text) (hmarker : ∀ found, marker.text? = some found → IsLine found)
    (h : truncateMarked text width edge marker = .ok content) : IsLine content := by
  unfold truncateMarked at h
  split at h
  · next found hfound => exact isLine_truncate htext (hmarker found hfound) (lift_eq_ok_iff.mp h)
  · obtain ⟨spans, _, hcontent⟩ := bind_eq_ok_iff.mp h
    split at hcontent
    · obtain rfl := Except.ok.inj hcontent
      exact htext
    · cases hcontent

/-- The body of a line of a wrapped cell has no line break. -/
theorem isLine_wrappedBody {width : Int} {lead line body : Text} (hline : IsLine line)
    (h : wrappedBody width lead line = .ok body) : IsLine body := by
  obtain ⟨used, _, hbody⟩ := bind_eq_ok_iff.mp h
  have hrest := hline.of_subset (List.drop_subset lead.length line)
  split at hbody
  · exact isLine_cut hrest hbody
  · obtain rfl := Except.ok.inj hbody
    exact hrest

/-- What the lines of a cell show has no line breaks. -/
theorem Contents.areLines {column : Column} {width : Int} {text : Text}
    {contents : List (Text × Text)} (h : Contents column width text contents)
    (hgives : column.overflow.GivesLines text) :
    ∀ shown ∈ contents, IsLine shown.1 ∧ IsLine shown.2 := by
  have hone {content : Text} (hcontent : IsLine content) :
      ∀ shown ∈ [(([] : Text), content)], IsLine shown.1 ∧ IsLine shown.2 :=
    List.forall_mem_singleton.mpr ⟨isLine_nil, hcontent⟩
  cases h with
  | whole hexpand =>
    rw [Overflow.isExpand_eq_true_iff.mp hexpand] at hgives
    exact hone hgives
  | nothing hexpand hwidth => exact hone isLine_nil
  | truncated hoverflow hwidth hcut =>
    rw [hoverflow] at hgives
    exact hone (isLine_truncateMarked hgives.1 hgives.2 hcut)
  | clipped hoverflow hwidth hcut =>
    rw [hoverflow] at hgives
    exact hone (isLine_truncate hgives isLine_nil hcut)
  | @wrapped indent count kept first head later rest hoverflow hwidth hindent hkept hwrap hfirst
      hlater =>
    obtain ⟨hfirstLine, hlaterLines⟩ := List.forall_mem_cons.mp (isLine_of_mem_wrapIndent hwrap)
    refine List.forall_mem_cons.mpr ⟨⟨isLine_nil, isLine_wrappedBody hfirstLine hfirst⟩, ?_⟩
    intro shown hshown
    obtain ⟨body, hbody, rfl⟩ := List.mem_map.mp hshown
    obtain ⟨line, hline, hdrawn⟩ := exists_mem_of_forall₂ (mapM_eq_ok_iff.mp hlater) hbody
    exact ⟨isLine_spaces kept, isLine_wrappedBody (hlaterLines line hline) hdrawn⟩

/-- The lines of a cell have no line breaks where the overflow rule gives lines. -/
theorem draw_areLines {text : Text} {column : Column} {width index : Int} {cell : Cell}
    (hgives : column.overflow.GivesLines text) (h : draw text column width index = .ok cell) :
    ∀ line ∈ cell.lines, IsLine line := by
  obtain ⟨contents, hcontents, hfills⟩ := draw_spec h
  intro line hline
  obtain ⟨shown, hshown, hfilled⟩ := exists_mem_of_forall₂ hfills hline
  apply (hfilled.isLine_iff fun name hname => isTagName_of_styleName? hname).mpr
  exact hcontents.areLines hgives shown hshown

/-- A text with room is drawn with its line breaks unless its column wraps. -/
theorem draw_isLine_iff {text : Text} {used : Nat} {column : Column} {width : Int}
    (hnested : IsNested text) (hused : displayWidth text = .ok used) (hfits : used ≤ width)
    (hkeeps : column.overflow.KeepsLine) (hroom : column.isExpand = true ∨ 1 ≤ width)
    (index : Int) :
    ∃ line, draw text column width index = .ok ⟨index, width, [line]⟩ ∧
      (IsLine line ↔ IsLine text) := by
  refine ⟨_, draw_of_le hnested hused hfits hkeeps hroom index, ?_⟩
  rw [isLine_fill_iff, isLine_styled_iff fun name hname => isTagName_of_styleName? hname]

end Cell

/-! ### Rows -/

/-- Whether no decoration has a line break. -/
structure Decorations.AreLines (decorations : Decorations) : Prop where
  separator : IsLine decorations.separator
  leading : IsLine decorations.leading
  trailing : IsLine decorations.trailing

/-- Whether no line break of the texts of a record may be drawn. -/
def Spec.GivesLines (spec : Spec) (record : Value) : Prop :=
  ∀ entry ∈ spec.columns.zipIdx, ∀ text, Cell.textIn record entry.1 entry.2 = .ok text →
    entry.1.overflow.GivesLines text

namespace Formatter

open Markup

/-- A line that is padded is a line. -/
theorem isLine_padRight {text filled : Text} {width : Int} (hline : IsLine text)
    (h : padRight text width = .ok filled) : IsLine filled := by
  have hpad : Cell.pad .left text width = .ok filled := h
  obtain ⟨used, _, rfl⟩ := Cell.pad_eq_ok_iff.mp hpad
  exact Cell.isLine_fill_iff.mpr hline

/-- Two groups of lines are joined to a line. -/
theorem isLine_joinGroups {inner : Int} {separator fill body : Text} {left right : List Text}
    (hseparator : IsLine separator) (hfill : IsLine fill) (hleft : ∀ text ∈ left, IsLine text)
    (hright : ∀ text ∈ right, IsLine text)
    (h : joinGroups inner separator fill left right = .ok body) : IsLine body := by
  have hleftText := hseparator.joined hleft
  have hrightText := hseparator.joined hright
  unfold joinGroups at h
  split at h
  · obtain rfl := Except.ok.inj h
    exact hleftText
  obtain ⟨rightWidth, _, h⟩ := bind_eq_ok_iff.mp h
  split at h
  · obtain rfl := Except.ok.inj h
    exact (hfill.repeated _).append hrightText
  obtain ⟨separatorWidth, _, h⟩ := bind_eq_ok_iff.mp h
  obtain ⟨leftWidth, _, h⟩ := bind_eq_ok_iff.mp h
  dsimp only at h
  split at h
  · obtain rfl := Except.ok.inj h
    exact ((hleftText.append (hfill.repeated _)).append hseparator).append hrightText
  · obtain ⟨kept, hcut, h⟩ := bind_eq_ok_iff.mp h
    obtain ⟨filled, hpad, h⟩ := bind_eq_ok_iff.mp h
    obtain rfl := Except.ok.inj h
    have hfilled := isLine_padRight (isLine_cut hleftText hcut) hpad
    exact (hfilled.append hseparator).append hrightText

/-- A line is its groups between the decorations at its ends. -/
theorem exists_joinGroups_of_joinLine {total : Int} {decorations : Decorations} {fill line : Text}
    {left right : List Text} (h : joinLine total decorations fill left right = .ok line) :
    ∃ inner body, joinGroups inner decorations.separator fill left right = .ok body ∧
      line = decorations.leading ++ body ++ decorations.trailing := by
  simp only [joinLine, pure_bind] at h
  split at h
  · obtain ⟨body, hbody, hline⟩ := bind_eq_ok_iff.mp h
    exact ⟨total, body, hbody, (Except.ok.inj hline).symm⟩
  · obtain ⟨leading, _, h⟩ := bind_eq_ok_iff.mp h
    obtain ⟨trailing, _, h⟩ := bind_eq_ok_iff.mp h
    obtain ⟨body, hbody, hline⟩ := bind_eq_ok_iff.mp h
    exact ⟨total - leading - trailing, body, hbody, (Except.ok.inj hline).symm⟩

/-- A line that is put together from lines is one. -/
theorem isLine_joinLine {total : Int} {decorations : Decorations} {fill line : Text}
    {left right : List Text} (hdecorations : decorations.AreLines) (hfill : IsLine fill)
    (hleft : ∀ text ∈ left, IsLine text) (hright : ∀ text ∈ right, IsLine text)
    (h : joinLine total decorations fill left right = .ok line) : IsLine line := by
  obtain ⟨inner, body, hbody, rfl⟩ := exists_joinGroups_of_joinLine h
  have hline := isLine_joinGroups hdecorations.separator hfill hleft hright hbody
  exact (hdecorations.leading.append hline).append hdecorations.trailing

variable {formatter : Formatter}

/-- Cells whose lines have no line breaks are assembled to lines without any. -/
theorem assemble_areLines {cells : List Cell} {decorations : Decorations} {fill : Text}
    {lines : List Text} (hcells : ∀ cell ∈ cells, ∀ line ∈ cell.lines, IsLine line)
    (hdecorations : decorations.AreLines) (hfill : IsLine fill)
    (h : formatter.assemble cells decorations fill = .ok lines) : ∀ line ∈ lines, IsLine line := by
  intro line hline
  obtain ⟨position, _, hjoin⟩ := exists_mem_of_forall₂ (mapM_eq_ok_iff.mp h) hline
  have hgroups (anchor : Anchor) :=
    forall_mem_groupLines isLine_spaces hcells formatter.spec.columns anchor position
  exact isLine_joinLine hdecorations hfill (hgroups .left) (hgroups .right)
    (lift_eq_ok_iff.mp hjoin)

/-- The cells of a record that gives lines have lines without line breaks. -/
theorem cells_areLines {record : Value} {cells : List Cell}
    (hgives : formatter.spec.GivesLines record) (h : formatter.cells record = .ok cells) :
    ∀ cell ∈ cells, ∀ line ∈ cell.lines, IsLine line := by
  intro cell hcell
  obtain ⟨slot, hslot, hdrawn⟩ := exists_mem_of_forall₂ (mapM_eq_ok_iff.mp h) hcell
  obtain ⟨text, htext, hdraw⟩ := bind_eq_ok_iff.mp hdrawn
  exact Cell.draw_areLines (hgives _ (mem_zipIdx_of_mem_slots hslot) text htext) hdraw

/-- The lines of a record that gives lines have no line breaks. -/
theorem rowLines_areLines {record : Value} {lines : List Text}
    (hdecorations : formatter.spec.decorations.AreLines) (hgives : formatter.spec.GivesLines record)
    (h : formatter.rowLines record = .ok lines) : ∀ line ∈ lines, IsLine line := by
  unfold rowLines at h
  split at h
  · obtain ⟨cells, hcells, hlines⟩ := bind_eq_ok_iff.mp h
    exact assemble_areLines (cells_areLines hgives hcells) hdecorations (by decide) hlines
  · obtain rfl := Except.ok.inj h
    simp

/-- Every cell of a record stands beside its column. -/
theorem mem_zip_of_mem_cells {record : Value} {cells : List Cell}
    (h : formatter.cells record = .ok cells) {cell : Cell} (hcell : cell ∈ cells) :
    ∃ column, (column, cell) ∈ formatter.spec.columns.zip cells := by
  have hlength := (mapM_eq_ok_iff.mp h).length_eq
  have hle : cells.length ≤ formatter.spec.columns.length := by
    simp only [slots, List.length_map, List.length_zip, List.length_zipIdx] at hlength
    omega
  rw [← List.map_snd_zip hle] at hcell
  obtain ⟨⟨column, _⟩, hmem, rfl⟩ := List.mem_map.mp hcell
  exact ⟨column, hmem⟩

/-- A record that is drawn as a single line has no other lines. -/
theorem rowLines_of_row {record : Value} {line : Text} (h : formatter.row record = .ok line) :
    ∃ lines, formatter.rowLines record = .ok lines ∧ lines.length ≤ 1 ∧
      line = lines.head?.getD [] := by
  unfold row at h
  unfold rowLines
  split at h
  · next hdraws =>
    obtain ⟨cells, hcells, h⟩ := bind_eq_ok_iff.mp h
    split at h
    · obtain ⟨shown, _, hthrown⟩ := bind_eq_ok_iff.mp h
      cases hthrown
    · next hsingle =>
      obtain ⟨lines, hlines, hline⟩ := bind_eq_ok_iff.mp h
      have hcount : height cells ≤ 1 := by
        apply height_le
        intro cell hcell
        obtain ⟨column, hmem⟩ := mem_zip_of_mem_cells hcells hcell
        rw [← List.zipIdx_map_fst 0 (formatter.spec.columns.zip cells)] at hmem
        obtain ⟨⟨_, index⟩, hentry, rfl⟩ := List.mem_map.mp hmem
        simpa [Cell.isMulti] using List.find?_eq_none.mp hsingle _ hentry
      have hlength := (mapM_eq_ok_iff.mp hlines).length_eq
      rw [List.length_range] at hlength
      refine ⟨lines, ?_, by omega, (Except.ok.inj hline).symm⟩
      rw [if_pos hdraws, hcells]
      exact hlines
  · next hdraws =>
    obtain rfl := Except.ok.inj h
    refine ⟨[], ?_, by simp, rfl⟩
    rw [if_neg hdraws]
    rfl

/-- A name without line breaks gives lines, whatever the note is. -/
theorem givesLines_noteRecord {name : Text} (hname : IsLine name) (note : Text) :
    Spec.notes.GivesLines (Table.noteRecord name note) := by
  intro entry hentry text htext
  obtain rfl | rfl : entry = (Column.names, 0) ∨ entry = (Column.notes, 1) := by
    simpa [Spec.notes, List.zipIdx_cons] using hentry
  · obtain rfl : name = text := Except.ok.inj htext
    refine ⟨hname, ?_⟩
    intro content hcontent
    obtain rfl : defaultMarker = content := Option.some.inj hcontent
    decide
  · trivial

/-- A name beside a note with line breaks, and one beside a note of one line. -/
def brokenNotes : List Value :=
  [Table.noteRecord ['A', 'd', 'a'] "first\n\nlast note".toList,
    Table.noteRecord ['B', 'o'] "one".toList]

/-- A clipped column of three cells. -/
def boxedSpec : Spec where
  columns := [{ width := .fixed 3, overflow := .clip, sound := rfl }]
  decorations := {}
  sound := Decorations.fault?_default
  whole := rfl

end Formatter

end TextGrid
