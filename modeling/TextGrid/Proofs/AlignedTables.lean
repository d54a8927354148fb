import TextGrid.Proofs.Alignment

/-!
# Tables that line up

All lines of a table are equally wide, whatever they are made of. Where its columns fit, each line
is a row of headers, a row of a record or a rule, laid out over the same slots.
-/

namespace TextGrid

/-- Whether the columns of a spec take all texts that they have in a record. -/
def Spec.TakesTexts (spec : Spec) (record : Value) : Prop :=
  ∀ entry ∈ spec.columns.zipIdx, ∀ text, Cell.textIn record entry.1 entry.2 = .ok text →
    ∃ plain, Markup.ShowsWithout '[' text plain ∧ entry.1.overflow.Takes plain

namespace Measured

/-- A record that was measured has a text for every column. -/
theorem isDrawable_of_record {spec : Spec} {value : Value} {widths : List Nat}
    (h : record spec value = .ok widths) (htexts : spec.TakesTexts value) :
    spec.IsDrawable value := by
  intro entry hentry
  have hpairs := mapM_eq_ok_iff.mp h
  obtain ⟨width, hwidth⟩ : ∃ width, contentWidth value entry.1 entry.2 = .ok width := by
    have hflip := hpairs.flip
    obtain ⟨width, _, hwidth⟩ := exists_mem_of_forall₂ hflip hentry
    exact ⟨width, hwidth⟩
  obtain ⟨text, htext, _⟩ := bind_eq_ok_iff.mp hwidth
  obtain ⟨plain, hshows, htakes⟩ := htexts entry hentry text htext
  exact ⟨text, plain, htext, hshows, htakes⟩

/-- Records of texts that were measured together can be drawn. -/
theorem isDrawable_of_ofRecords {spec : Spec} {records : List Value} {withHeaders : Bool}
    {measured : List Int} (h : ofRecords spec records withHeaders = .ok measured)
    (htexts : ∀ record ∈ records, spec.TakesTexts record) :
    ∀ record ∈ records, spec.IsDrawable record := by
  obtain ⟨start, hrun⟩ : ∃ start, records.foldlM
      (fun widths value => do return widest widths (← record spec value)) start =
        (.ok measured : Except LayoutError (List Int)) := by
    unfold ofRecords at h
    cases withHeaders with
    | false => exact ⟨_, h⟩
    | true =>
      obtain ⟨start, _, hrun⟩ := bind_eq_ok_iff.mp h
      exact ⟨start, hrun⟩
  clear h
  induction records generalizing start with
  | nil => simp
  | cons value later ih =>
    obtain ⟨hvalue, hlater⟩ := List.forall_mem_cons.mp htexts
    rw [List.foldlM_cons] at hrun
    obtain ⟨next, hnext, hrest⟩ := bind_eq_ok_iff.mp hrun
    obtain ⟨widths, hwidths, _⟩ := bind_eq_ok_iff.mp hnext
    exact List.forall_mem_cons.mpr ⟨isDrawable_of_record hwidths hvalue, ih hlater next hrest⟩

end Measured

/-- The decorations of a rule are as wide as those of a row in the same border. -/
theorem TableStyle.ruleDecorations_sameCells {border : BorderStyle} {glyphs : BorderGlyphs}
    (hglyphs : border.glyphs? = some glyphs) {rule : RuleGlyphs}
    (hrule : rule ∈ glyphs.rules) (otherwise : Decorations) :
    (ruleDecorations glyphs.horizontal rule).SameCells (border.decorations otherwise) := by
  have hone : ∀ c ∈ glyphs.chars, Cluster.charWidth c = 1 := fun c hc =>
    (BorderStyle.isOrdinary_of_mem_chars hglyphs c hc).2.1
  have hmem : ∀ c ∈ [rule.left, rule.junction, rule.right], c ∈ glyphs.chars := fun c hc =>
    List.mem_append_right _ (List.mem_flatMap.mpr ⟨rule, hrule, hc⟩)
  have hhorizontal := hone glyphs.horizontal (by simp [BorderGlyphs.chars])
  have hvertical := hone glyphs.vertical (by simp [BorderGlyphs.chars])
  have hleft := hone _ (hmem rule.left (by simp))
  have hjunction := hone _ (hmem rule.junction (by simp))
  have hright := hone _ (hmem rule.right (by simp))
  constructor <;>
    simp [ruleDecorations, BorderStyle.decorations, Text.charWidth_space, *]

namespace Table

open Formatter Markup

/-- The lines of a table whose columns fit. A row of headers or of a record stands between the
decorations of the spec, and a rule has horizontal strokes in place of content and slack. -/
inductive LaidOut (style : TableStyle) (formatter : Formatter) (records : List Value) : Text → Prop
  | header {cells : List Cell} {position : Nat} {line : Text} (hheader : style.header = true)
      (hcells : formatter.headerCells style.headerStyle = .ok cells)
      (h : formatter.LaysOut formatter.spec.decorations [' '] cells position line) :
      LaidOut style formatter records line
  | row {record : Value} {cells : List Cell} {position : Nat} {line : Text}
      (hrecord : record ∈ records ++ style.footer.toList)
      (hcells : formatter.cells record = .ok cells)
      (h : formatter.LaysOut formatter.spec.decorations [' '] cells position line) :
      LaidOut style formatter records line
  | rule {glyphs : BorderGlyphs} {rule : RuleGlyphs} {bare line : Text}
      (hglyphs : style.border.glyphs? = some glyphs)
      (hrule : rule ∈ glyphs.rules)
      (h : formatter.LaysOut (TableStyle.ruleDecorations glyphs.horizontal rule) [glyphs.horizontal]
        (formatter.ruleCells [glyphs.horizontal]) 0 bare)
      (hline : style.glyphText bare = .ok line) :
      LaidOut style formatter records line

/-- Whether all lines of a run, if there are any, are of some kind. -/
def AllLines (kind : Text → Prop) (run : Except LayoutError (List Text)) : Prop :=
  ∀ lines, run = .ok lines → ∀ line ∈ lines, kind line

variable {kind : Text → Prop}

/-- A run without lines has lines of every kind. -/
theorem allLines_nil : AllLines kind (.ok []) := by
  intro lines hlines
  obtain rfl := Except.ok.inj hlines
  simp

/-- Two runs with lines of one kind have such lines together. -/
theorem AllLines.append {first second : Except LayoutError (List Text)}
    (h : AllLines kind first) (h' : AllLines kind second) :
    AllLines kind (do return (← first) ++ (← second)) := by
  intro lines hlines
  obtain ⟨before, hbefore, hrest⟩ := bind_eq_ok_iff.mp hlines
  obtain ⟨after, hafter, hall⟩ := bind_eq_ok_iff.mp hrest
  obtain rfl := Except.ok.inj hall
  exact List.forall_mem_append.mpr ⟨h before hbefore, h' after hafter⟩

/-- The lines of a table are those of rules, headers and rows. -/
theorem lines_allLines {style : TableStyle} {formatter : Formatter} {records : List Value}
    (hrule : ∀ choose : BorderGlyphs → RuleGlyphs,
      (∀ glyphs : BorderGlyphs, choose glyphs ∈ glyphs.rules) →
      AllLines kind (style.ruleLines formatter choose))
    (hheader : style.header = true → AllLines kind (formatter.headerLines style.headerStyle))
    (hrow : ∀ record ∈ records ++ style.footer.toList, AllLines kind (formatter.rowLines record)) :
    AllLines kind (lines style formatter records) := by
  have htop := hrule (·.top) fun glyphs => by simp
  have hmiddle := hrule (·.middle) fun glyphs => by simp
  have hbottom := hrule (·.bottom) fun glyphs => by simp
  have hheaders : AllLines kind (headerLines style formatter) := by
    unfold headerLines
    split
    · next hflag => exact (hheader hflag).append hmiddle
    · exact allLines_nil
  obtain ⟨hrecords, hlast⟩ := List.forall_mem_append.mp hrow
  have hbody : AllLines kind (bodyLines style formatter records) := by
    clear hrow
    induction records with
    | nil => exact allLines_nil
    | cons record later ih =>
      obtain ⟨hrecord, hlater⟩ := List.forall_mem_cons.mp hrecords
      cases later with
      | nil => exact hrecord
      | cons next others =>
        rw [bodyLines_cons_cons]
        split
        · have hall := (hrecord.append hmiddle).append (ih hlater)
          simp only [bind_assoc, pure_bind] at hall
          exact hall
        · exact hrecord.append (ih hlater)
  have hfooter : AllLines kind (footerLines style formatter) := by
    unfold footerLines
    cases hrecord : style.footer with
    | none => exact allLines_nil
    | some record => exact hmiddle.append (hlast record (by simp [hrecord]))
  have hall := (((htop.append hheaders).append hbody).append hfooter).append hbottom
  simp only [bind_assoc, pure_bind] at hall
  exact hall

section Kinds

variable {formatter : Formatter} {plain : Decorations} {style : TableStyle} {records : List Value}
  (hspec : formatter.spec.decorations.Draws plain)
  (hcolumns : ∀ column ∈ formatter.spec.columns, column.overflow.IsOrdinary)
  (hmeasured : formatter.measured = some (Measured.plain formatter.spec
    (records ++ style.footer.toList) style.header))
  (hresolve : Widths.resolve formatter.spec formatter.total formatter.measured =
    .ok formatter.widths)

/-- Whether a line is as wide as the others, and laid out with them where the columns fit. -/
def Aligned (style : TableStyle) (formatter : Formatter) (plain : Decorations)
    (records : List Value) (line : Text) : Prop :=
  Spans line (formatter.lineCells plain) ∧
    (formatter.Fits → LaidOut style formatter records line)

include hspec hcolumns hmeasured hresolve

/-- The lines of a record line up. -/
theorem rowLines_aligned {record : Value} (hrecord : record ∈ records ++ style.footer.toList)
    (hdrawable : formatter.spec.IsDrawable record) :
    AllLines (Aligned style formatter plain records) (formatter.rowLines record) := by
  intro lines hlines
  unfold rowLines at hlines
  split at hlines
  · next hdraws =>
    obtain ⟨cells, hcells, hpictures⟩ := cells_pictures
      (fun slot hslot => hcolumns _ (column_mem_of_mem_slots hslot))
      (fun slot hslot => hdrawable _ (mem_zipIdx_of_mem_slots hslot))
    rw [hcells] at hlines
    have haligned := assembleRow_aligned (isSuited_of_plain hdraws hmeasured hresolve) hdraws hspec
      hpictures (plainCells_filled hdraws hmeasured hresolve hrecord) hlines
    intro line hline
    obtain ⟨hspans, hlaid⟩ := haligned line hline
    refine ⟨hspans, fun hfits => ?_⟩
    obtain ⟨position, hlaysOut⟩ := hlaid hfits
    exact .row hrecord hcells hlaysOut
  · exact allLines_nil lines hlines

/-- The lines of the headers line up. -/
theorem headerLines_aligned (hstyle : IsStyleName style.headerStyle)
    (hheaders : ∀ column ∈ formatter.spec.columns, column.HasHeader)
    (hheader : style.header = true) :
    AllLines (Aligned style formatter plain records)
      (formatter.headerLines style.headerStyle) := by
  intro lines hlines
  rw [headerLines_eq] at hlines
  split at hlines
  · next hdraws =>
    obtain ⟨cells, hcells, hpictures⟩ := headerCells_pictures hstyle
      (fun slot hslot => hcolumns _ (column_mem_of_mem_slots hslot))
      (fun slot hslot => hheaders _ (column_mem_of_mem_slots hslot))
    rw [hcells] at hlines
    have haligned := assembleRow_aligned (isSuited_of_plain hdraws hmeasured hresolve) hdraws hspec
      hpictures (plainHeaders_filled hdraws hmeasured hresolve hheader) hlines
    intro line hline
    obtain ⟨hspans, hlaid⟩ := haligned line hline
    refine ⟨hspans, fun hfits => ?_⟩
    obtain ⟨position, hlaysOut⟩ := hlaid hfits
    exact .header hheader hcells hlaysOut
  · exact allLines_nil lines hlines

omit hcolumns in
/-- A rule lines up with the rows. -/
theorem ruleLines_aligned (hborder : IsStyleName style.borderTag) {otherwise : Decorations}
    (hplain : plain = style.border.decorations otherwise) {choose : BorderGlyphs → RuleGlyphs}
    (hchoose : ∀ glyphs : BorderGlyphs, choose glyphs ∈ glyphs.rules) :
    AllLines (Aligned style formatter plain records) (style.ruleLines formatter choose) := by
  unfold TableStyle.ruleLines
  cases hglyphs : style.border.glyphs? with
  | none => exact allLines_nil
  | some glyphs =>
    intro lines hlines line hline
    obtain ⟨bare, hrule, hlast⟩ := bind_eq_ok_iff.mp hlines
    have hbare : bare ≠ [] := by
      rintro rfl
      obtain rfl := Except.ok.inj hlast
      simp at hline
    rw [List.isEmpty_eq_false_iff.mpr hbare] at hlast
    obtain ⟨drawn, hglyph, hdrawn⟩ := bind_eq_ok_iff.mp hlast
    obtain rfl := Except.ok.inj hdrawn
    obtain rfl := List.mem_singleton.mp hline
    have hdraws : formatter.draws = true := by
      by_contra hnothing
      rw [rule, if_neg hnothing] at hrule
      exact hbare (Except.ok.inj hrule).symm
    have hfill : Draws [glyphs.horizontal] [glyphs.horizontal] :=
      TableStyle.draws_of_mem_chars hglyphs (by simp [BorderGlyphs.chars])
    have hone : Text.cells [glyphs.horizontal] = 1 := by
      have hwidth := BorderStyle.isOrdinary_of_mem_chars hglyphs glyphs.horizontal
        (by simp [BorderGlyphs.chars])
      simp [hwidth.2.1]
    have hsame :
        (TableStyle.ruleDecorations glyphs.horizontal (choose glyphs)).SameCells plain := by
      rw [hplain]
      exact TableStyle.ruleDecorations_sameCells hglyphs (hchoose glyphs) otherwise
    have hsuited := isSuited_of_plain hdraws hmeasured hresolve
    obtain ⟨hspans, hlaid⟩ := rule_aligned hsuited hdraws hspec
      (TableStyle.ruleDecorations_draws hglyphs (hchoose glyphs)) hsame hfill hone hrule hbare
    obtain ⟨text, hshown, hwidth⟩ := hspans
    obtain ⟨styled, hstyled, hdraw⟩ := TableStyle.exists_glyphText hborder hshown
    obtain rfl : styled = line := Except.ok.inj (hstyled.symm.trans hglyph)
    exact ⟨⟨text, hdraw, hwidth⟩,
      fun hfits => .rule hglyphs (hchoose glyphs) (hlaid hfits) hglyph⟩

end Kinds

/-- A record with its texts by name: a name and a note. -/
def noteRecord (name note : Text) : Value :=
  .map [(.text ['n', 'a', 'm', 'e'], .text name), (.text ['n', 'o', 't', 'e'], .text note)]

/-- The columns of names and notes take a name and a note that can be drawn. -/
theorem takesTexts_noteRecord (namePlain notePlain : Text) {name note : Text}
    (hname : Draws name namePlain) (hnote : ShowsWithout '[' note notePlain)
    (hwrappable : notePlain.IsWrappable) : Spec.notes.TakesTexts (noteRecord name note) := by
  rintro entry hentry text htext
  obtain rfl | rfl : entry = (Column.names, 0) ∨ entry = (Column.notes, 1) := by
    simpa [Spec.notes, List.zipIdx_cons] using hentry
  · obtain rfl : name = text := Except.ok.inj htext
    exact ⟨namePlain, hname.shows, hname.ordinary⟩
  · obtain rfl : note = text := Except.ok.inj htext
    exact ⟨notePlain, hnote, hwrappable⟩

/-- A table of names and notes with rules between records and above its footer. -/
def ruledStyle : TableStyle where
  border := .rounded
  headerStyle := .text ['i']
  footer := some (noteRecord ['A', 'l', 'l'] ['2'])
  rowSeparator := true
  borderTag := .text ['d']

/-- A short name beside a note of two lines, and a name that is cut beside a short note. -/
def ruledRecords : List Value :=
  [noteRecord ['A', 'd', 'a'] ['f', 'i', 'r', 's', 't', ' ', 'o', 'n', 'e'],
    noteRecord (Markup.style ['A', 'u', 'g', 'u', 's', 't', 'a'] ['b']) ['b']]

end Table

end TextGrid
