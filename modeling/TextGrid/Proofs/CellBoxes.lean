import TextGrid.Proofs.PlainCells

/-!
# Cell boxes

A cell is drawn in two steps. The overflow rule of its column decides what each line shows
(`Cell.Contents`). Then the style tags go around that, and spaces outside of the tags fill the box
on the side away from the anchor (`Cell.Fills`). Main statement: whatever the column and the width,
every line of an ordinary cell is well nested and exactly as wide as the cell.
-/

namespace TextGrid

/-- Content and a number of spaces, which stand on the side away from the anchor. -/
def Anchor.fill (anchor : Anchor) (content : Text) (count : Int) : Text :=
  match anchor with
  | left => content ++ Text.spaces count
  | right => Text.spaces count ++ content

namespace Cell

open Markup

/-! ### What a line shows -/

/-- What a wrapped line shows behind its lead, cut if a wide cluster sticks out. -/
def wrappedBody (width : Int) (lead line : Text) : Except MarkupError Text := do
  let room := width - lead.length
  let body := line.drop lead.length
  if room < (← displayWidth body) then cut body room else pure body

/-- What the lines of a cell show within their style tags, each with the lead before it. -/
inductive Contents (column : Column) (width : Int) (text : Text) : List (Text × Text) → Prop
  | whole (hexpand : column.isExpand = true) : Contents column width text [([], text)]
  | nothing (hexpand : column.isExpand = false) (hwidth : width ≤ 0) :
    Contents column width text [([], [])]
  | truncated {edge : Edge} {marker : Value} {content : Text}
    (hoverflow : column.overflow = .truncate edge marker) (hwidth : 0 < width)
    (hcut : truncateMarked text width edge marker = .ok content) :
    Contents column width text [([], content)]
  | clipped {content : Text} (hoverflow : column.overflow = .clip) (hwidth : 0 < width)
    (hcut : truncate text width .finish [] = .ok content) :
    Contents column width text [([], content)]
  | wrapped {indent : Value} {count kept : Int} {first head : Text} {later rest : List Text}
    (hoverflow : column.overflow = .wrap indent) (hwidth : 0 < width)
    (hindent : indentFor text width indent = .ok count)
    (hkept : (if count < width then count else 0) = kept)
    (hwrap : wrapIndent text width kept = .ok (first :: later))
    (hfirst : wrappedBody width [] first = .ok head)
    (hlater : later.mapM (wrappedBody width (Text.spaces kept)) = .ok rest) :
    Contents column width text (([], head) :: rest.map (Text.spaces kept, ·))

/-- A cell shows one piece of content at least. -/
theorem Contents.ne_nil {column : Column} {width : Int} {text : Text}
    {contents : List (Text × Text)} (h : Contents column width text contents) : contents ≠ [] := by
  cases h <;> exact List.cons_ne_nil _ _

/-- Whether a line is its lead and then its content, in its style and filled up to the box with
spaces outside of the style tags. -/
def Fills (anchor : Anchor) (tag : Option Text) (box : Int) (shown : Text × Text) (line : Text) :
    Prop :=
  ∃ used, displayWidth (styled shown.2 tag) = .ok used ∧
    line = shown.1 ++ anchor.fill (styled shown.2 tag) (box - shown.1.length - used)

/-! ### What is drawn -/

/-- Padding fills a text that can be measured with spaces up to the width. -/
theorem pad_eq_ok_iff {anchor : Anchor} {content filled : Text} {width : Int} :
    pad anchor content width = .ok filled ↔
      ∃ used, displayWidth content = .ok used ∧ filled = anchor.fill content (width - used) := by
  cases hused : displayWidth content with
  | error fault => cases anchor <;> simp [pad, padRight, padLeft, shortfall, hused]
  | ok used =>
    cases anchor with
    | left => simp [pad, padRight_eq hused, Anchor.fill, eq_comm]
    | right => simp [pad, padLeft_eq hused, Anchor.fill, eq_comm]

/-- A padded content fills a line without a lead. -/
theorem fills_of_pad {anchor : Anchor} {tag : Option Text} {content filled : Text} {width : Int}
    (h : pad anchor (styled content tag) width = .ok filled) :
    Fills anchor tag width ([], content) filled := by
  obtain ⟨used, hused, rfl⟩ := pad_eq_ok_iff.mp h
  exact ⟨used, hused, by simp⟩

/-- A line of a wrapped cell is its body behind the lead, filled up. -/
theorem fills_of_wrappedLine {anchor : Anchor} {tag : Option Text} {width : Int}
    {lead line drawn : Text} (h : wrappedLine anchor tag width lead line = .ok drawn) :
    ∃ body, wrappedBody width lead line = .ok body ∧ Fills anchor tag width (lead, body) drawn := by
  have hsplit : wrappedLine anchor tag width lead line = (do
      let body ← wrappedBody width lead line
      return lead ++ (← pad anchor (styled body tag) (width - lead.length))) := by
    simp only [wrappedLine, wrappedBody, bind_assoc]
    congr 1
    funext used
    split <;> rfl
  rw [hsplit, bind_eq_ok_iff] at h
  obtain ⟨body, hbody, hdrawn⟩ := h
  obtain ⟨filled, hpad, hfilled⟩ := bind_eq_ok_iff.mp hdrawn
  obtain rfl := Except.ok.inj hfilled
  obtain ⟨used, hused, rfl⟩ := pad_eq_ok_iff.mp hpad
  exact ⟨body, hbody, used, hused, rfl⟩

/-- Each later line of a wrapped cell shows its content behind the same lead. -/
theorem fills_of_mapM_wrappedLine {anchor : Anchor} {tag : Option Text} {width : Int}
    {lead : Text} {lines drawn : List Text}
    (h : lines.mapM (wrappedLine anchor tag width lead) = .ok drawn) :
    ∃ bodies, lines.mapM (wrappedBody width lead) = .ok bodies ∧
      List.Forall₂ (Fills anchor tag width) (bodies.map (lead, ·)) drawn := by
  rw [mapM_eq_ok_iff] at h
  induction h with
  | nil => exact ⟨[], rfl, .nil⟩
  | cons hline _ ih =>
    obtain ⟨body, hbody, hfills⟩ := fills_of_wrappedLine hline
    obtain ⟨bodies, hbodies, hrest⟩ := ih
    refine ⟨body :: bodies, ?_, .cons hfills hrest⟩
    rw [List.mapM_cons, hbody, ok_bind, hbodies, ok_bind]
    rfl

/-- The lines of a wrapped cell: the first one without a lead, the later ones behind the indent. -/
theorem wrappedLines_spec {anchor : Anchor} {tag : Option Text} {width count kept : Int}
    {text : Text} {lines : List Text} (hkept : (if count < width then count else 0) = kept)
    (h : wrappedLines anchor tag width count text = .ok lines) :
    ∃ first later head rest, wrapIndent text width kept = .ok (first :: later) ∧
      wrappedBody width [] first = .ok head ∧
      later.mapM (wrappedBody width (Text.spaces kept)) = .ok rest ∧
      List.Forall₂ (Fills anchor tag width) (([], head) :: rest.map (Text.spaces kept, ·))
        lines := by
  simp only [wrappedLines, hkept, bind_eq_ok_iff] at h
  obtain ⟨wrapped, hwrap, hdrawn⟩ := h
  cases wrapped with
  | nil =>
    obtain ⟨spans, _, hspans⟩ := bind_eq_ok_iff.mp hwrap
    exact absurd (Except.ok.inj hspans) (wrapSpans_ne_nil spans width kept)
  | cons first later =>
    simp only [bind_eq_ok_iff] at hdrawn
    obtain ⟨head, hhead, rest, hrest, hlines⟩ := hdrawn
    obtain rfl := Except.ok.inj hlines
    obtain ⟨body, hbody, hfills⟩ := fills_of_wrappedLine hhead
    obtain ⟨bodies, hbodies, hfillsRest⟩ := fills_of_mapM_wrappedLine hrest
    exact ⟨first, later, body, bodies, hwrap, hbody, hbodies, .cons hfills hfillsRest⟩

/-- The lines of a box that content keeps to. -/
theorem boxLines_spec {text : Text} {column : Column} {width : Int} {lines : List Text}
    (hexpand : column.isExpand = false) (hwidth : 0 < width)
    (h : boxLines column width text = .ok lines) :
    ∃ contents, Contents column width text contents ∧
      List.Forall₂ (Fills column.anchor (styleName? column text) width) contents lines := by
  -- Text that is not wrapped is one line.
  have hone {content : Text} (hline : ∃ filled,
      pad column.anchor (styled content (styleName? column text)) width = .ok filled ∧
        (pure [filled] : Except LayoutError (List Text)) = .ok lines) :
      List.Forall₂ (Fills column.anchor (styleName? column text) width) [([], content)] lines := by
    obtain ⟨filled, hpad, hlines⟩ := hline
    obtain rfl := Except.ok.inj hlines
    exact .cons (fills_of_pad hpad) .nil
  unfold boxLines at h
  cases hoverflow : column.overflow with
  | wrap indent =>
    simp only [hoverflow, bind_eq_ok_iff, lift_eq_ok_iff] at h
    obtain ⟨count, hindent, hlines⟩ := h
    obtain ⟨first, later, head, rest, hwrap, hfirst, hlater, hfills⟩ := wrappedLines_spec rfl hlines
    exact ⟨_, .wrapped hoverflow hwidth hindent rfl hwrap hfirst hlater, hfills⟩
  | truncate edge marker =>
    simp only [hoverflow, bind_eq_ok_iff, lift_eq_ok_iff] at h
    obtain ⟨content, hcut, hline⟩ := h
    exact ⟨_, .truncated hoverflow hwidth hcut, hone hline⟩
  | clip =>
    simp only [hoverflow, bind_eq_ok_iff, lift_eq_ok_iff] at h
    obtain ⟨content, hcut, hline⟩ := h
    exact ⟨_, .clipped hoverflow hwidth hcut, hone hline⟩
  | expand =>
    rw [ColumnLayout.isExpand, hoverflow] at hexpand
    cases hexpand

/-- The lines of a cell show what the overflow rule leaves, each filled up to the box. -/
theorem draw_spec {text : Text} {column : Column} {width index : Int} {cell : Cell}
    (h : draw text column width index = .ok cell) :
    ∃ contents, Contents column width text contents ∧
      List.Forall₂ (Fills column.anchor (styleName? column text) cell.width) contents
        cell.lines := by
  unfold draw at h
  cases hexpand : column.isExpand with
  | true =>
    rw [if_pos hexpand, lift_eq_ok_iff] at h
    simp only [drawWhole, bind_eq_ok_iff] at h
    obtain ⟨used, hused, filled, hpad, hcell⟩ := h
    obtain rfl := Except.ok.inj hcell
    exact ⟨_, .whole hexpand, .cons (fills_of_pad hpad) .nil⟩
  | false =>
    rw [if_neg (by simp [hexpand])] at h
    by_cases hwidth : width ≤ 0
    · rw [if_pos hwidth] at h
      obtain ⟨used, _, hcell⟩ := bind_eq_ok_iff.mp h
      obtain rfl := Except.ok.inj hcell
      refine ⟨_, .nothing hexpand hwidth, .cons ⟨0, ?_, ?_⟩ .nil⟩
      · cases styleName? column text <;> rfl
      · cases styleName? column text <;> cases column.anchor <;> rfl
    · rw [if_neg hwidth] at h
      obtain ⟨lines, hlines, hcell⟩ := bind_eq_ok_iff.mp h
      obtain rfl := Except.ok.inj hcell
      exact boxLines_spec hexpand (by omega) hlines

/-- A right column that wraps, with an indent that is as wide as the boxes below. -/
def hanging : Column where
  overflow := .wrap (.int 3)
  anchor := .right
  style := some (.named ['i'])
  sound := rfl

/-- Wide ideographs, of which no two fit into three cells. -/
def ideographs : Text := "[b]日本[/b] 語".toList

end Cell

end TextGrid
