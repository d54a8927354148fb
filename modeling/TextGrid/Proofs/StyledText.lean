import TextGrid.Proofs.LoneBrackets

/-!
# Styled text

What a reader sees of a marked-up text is its code points in order, each in the styles of the tags
around it. Pruning and rebalancing change the tags of a span list but none of its styled code points
(`styled_rebalance`), and so does writing it out and reading it again (`Legible.styled_parse`).
-/

namespace TextGrid

namespace Markup

/-- A code point with the names of the tags open around it, innermost first. -/
abbrev StyledChar := Char × List Text

/-- The styled code points of a span list when the names of `stack` are open before it. A closing
tag closes the innermost name. -/
def styledFrom : List Text → List Span → List StyledChar
  | _, [] => []
  | stack, .text content :: later => content.map (·, stack) ++ styledFrom stack later
  | stack, .opening name :: later => styledFrom (name :: stack) later
  | stack, .closing _ :: later => styledFrom stack.tail later

/-- The styled code points of a span list. -/
def styled (spans : List Span) : List StyledChar :=
  styledFrom [] spans

/-- The names open after a span list when those of `stack` are open before it and each closing tag
closes the innermost one. -/
def stackAfter : List Text → List Span → List Text
  | stack, [] => stack
  | stack, .text _ :: later => stackAfter stack later
  | stack, .opening name :: later => stackAfter (name :: stack) later
  | stack, .closing _ :: later => stackAfter stack.tail later

/-! ### Runs of spans -/

/-- A run that goes through ends with the names that are open after it. -/
theorem stackAfter_of_openAfter {stack after : List Text} {spans : List Span}
    (h : openAfter stack spans = some after) : stackAfter stack spans = after := by
  induction spans generalizing stack with
  | nil => exact Option.some.inj h
  | cons span later ih =>
    cases span with
    | text content => exact ih h
    | opening name => exact ih h
    | closing name =>
      cases stack with
      | nil => simp [openAfter] at h
      | cons innermost outer =>
        by_cases hname : innermost = name
        · rw [openAfter, if_pos hname] at h
          exact ih h
        · simp [openAfter, hname] at h

/-- What is open behind two lists is found by going through both. -/
theorem stackAfter_append (stack : List Text) (left right : List Span) :
    stackAfter stack (left ++ right) = stackAfter (stackAfter stack left) right := by
  induction left generalizing stack with
  | nil => rfl
  | cons span later ih => cases span <;> exact ih _

/-- The styled code points of a second list begin with what the first one leaves open. -/
theorem styledFrom_append (stack : List Text) (left right : List Span) :
    styledFrom stack (left ++ right) =
      styledFrom stack left ++ styledFrom (stackAfter stack left) right := by
  induction left generalizing stack with
  | nil => rfl
  | cons span later ih =>
    cases span with
    | text content => simp [styledFrom, stackAfter, ih]
    | opening name => exact ih _
    | closing name => exact ih _

/-- Opening tags show nothing and leave their names open, the last one innermost. -/
theorem map_opening_spec (stack names : List Text) :
    styledFrom stack (names.map .opening) = [] ∧
      stackAfter stack (names.map .opening) = names.reverse ++ stack := by
  induction names generalizing stack with
  | nil => exact ⟨rfl, rfl⟩
  | cons name later ih =>
    obtain ⟨hstyled, hstack⟩ := ih (name :: stack)
    exact ⟨hstyled, by simpa [stackAfter] using hstack⟩

/-- Closing tags have no code points. -/
theorem styledFrom_map_closing (stack names : List Text) :
    styledFrom stack (names.map .closing) = [] := by
  induction names generalizing stack with
  | nil => rfl
  | cons name later ih => exact ih stack.tail

/-- Text behind opening tags is styled by their names. -/
theorem styledFrom_map_opening_append (names : List Text) (spans : List Span) :
    styled (names.map .opening ++ spans) = styledFrom names.reverse spans := by
  obtain ⟨hstyled, hstack⟩ := map_opening_spec [] names
  rw [styled, styledFrom_append, hstyled, hstack, List.nil_append, List.append_nil]

/-! ### Rebalancing -/

/-- What pruning drops shows nothing and leaves the open names as they are. -/
theorem prune_spec (stack : List Text) (spans : List Span) :
    styledFrom stack (prune spans) = styledFrom stack spans ∧
      stackAfter stack (prune spans) = stackAfter stack spans := by
  have hview : (styledFrom stack (prune spans), stackAfter stack (prune spans)) =
      (styledFrom stack spans, stackAfter stack spans) := by
    apply prune_view fun spans => (styledFrom stack spans, stackAfter stack spans)
    · intro spans spans' span h
      obtain ⟨hstyled, hstack⟩ := Prod.mk.inj h
      simp only [styledFrom_append, stackAfter_append, hstyled, hstack]
    · intro spans
      simp [styledFrom_append, stackAfter_append, styledFrom, stackAfter]
    · intro spans name
      simp [styledFrom_append, stackAfter_append, styledFrom, stackAfter]
  exact Prod.mk.inj hview

/-- A rebalanced slice shows its text in the styles that it closes without opening, and in its
own. -/
theorem styled_rebalance (spans : List Span) :
    styled (rebalance spans) = styledFrom (Unpaired.ofSpans spans).closings.reverse spans := by
  have hclosed (stack : List Text) : styledFrom stack
      (spans ++ (Unpaired.ofSpans spans).openings.map .closing) = styledFrom stack spans := by
    rw [styledFrom_append, styledFrom_map_closing, List.append_nil]
  rw [rebalance, styled, (prune_spec [] _).1, List.append_assoc, ← styled,
    styledFrom_map_opening_append, hclosed]

/-- A list that needs no tags before it looks the same once it is rebalanced. -/
theorem styled_rebalance_of_openAfter {spans : List Span} {after : List Text}
    (h : openAfter [] spans = some after) : styled (rebalance spans) = styled spans := by
  obtain ⟨_, outer, hbefore, _⟩ := Unpaired.openAfter_ofSpans h
  obtain ⟨hclosings, _⟩ := List.append_eq_nil_iff.mp hbefore.symm
  rw [styled_rebalance, hclosings, styled]

end Markup

/-! ### Atoms -/

/-- A tag as it is, or the code points of one kind of a text, each in a text of its own. -/
def Span.atoms (kind : Char → Bool) : Span → List Span
  | .text content => (content.filter kind).map fun c => .text [c]
  | tag => [tag]

namespace Markup

/-- The tags of a span list and its code points of one kind, one by one. -/
def atoms (kind : Char → Bool) (spans : List Span) : List Span :=
  spans.flatMap (Span.atoms kind)

variable (kind : Char → Bool)

/-- No spans have no atoms. -/
@[simp] theorem atoms_nil : atoms kind [] = [] := rfl

/-- The atoms of a first span come first. -/
@[simp] theorem atoms_cons (span : Span) (spans : List Span) :
    atoms kind (span :: spans) = span.atoms kind ++ atoms kind spans := by
  simp [atoms]

/-- The atoms of some spans come before those of the spans behind them. -/
@[simp] theorem atoms_append (left right : List Span) :
    atoms kind (left ++ right) = atoms kind left ++ atoms kind right := by
  simp [atoms]

/-- The tags of spans are among their atoms. -/
theorem tags_atoms (spans : List Span) : tags (atoms kind spans) = tags spans := by
  induction spans with
  | nil => rfl
  | cons span later ih =>
    rw [atoms_cons, tags_append, ih]
    cases span with
    | text content =>
      have hnone : tags (Span.atoms kind (.text content)) = [] := by
        rw [tags, Span.atoms, List.filter_map, List.map_eq_nil_iff]
        exact List.filter_eq_nil_iff.mpr fun c _ => by simp [Span.isText]
      rw [hnone, List.nil_append, tags_text]
    | opening name => rfl
    | closing name => rfl

/-- The text of atoms is made of the code points of their kind. -/
theorem plainText_atoms (spans : List Span) :
    plainText (atoms kind spans) = (plainText spans).filter kind := by
  induction spans with
  | nil => rfl
  | cons span later ih =>
    rw [atoms_cons, plainText_append, ih, plainText_cons, List.filter_append]
    cases span with
    | text content => simp [Span.atoms, plainText, Span.content, List.flatMap_map]
    | opening name => rfl
    | closing name => rfl

/-- The code points of a text count one by one, wherever it is cut. -/
theorem atoms_text_append (left right : Text) :
    Span.atoms kind (.text (left ++ right)) =
      Span.atoms kind (.text left) ++ Span.atoms kind (.text right) := by
  simp [Span.atoms]

/-- Atoms show the code points of their kind, in the same styles. -/
theorem styledFrom_atoms (stack : List Text) (spans : List Span) :
    styledFrom stack (atoms kind spans) = (styledFrom stack spans).filter (kind ·.1) := by
  induction spans generalizing stack with
  | nil => rfl
  | cons span later ih =>
    rw [atoms_cons]
    cases span with
    | text content =>
      have hcontent (text : Text) : styledFrom stack
          (text.map (fun c => Span.text [c]) ++ atoms kind later) =
            text.map (·, stack) ++ styledFrom stack (atoms kind later) := by
        induction text with
        | nil => rfl
        | cons c rest hrest => simp [styledFrom, hrest]
      rw [Span.atoms, hcontent, ih, styledFrom, List.filter_append, List.filter_map]
      rfl
    | opening name => exact ih (name :: stack)
    | closing name => exact ih stack.tail

/-- Lists with the same atoms show the same code points of their kind. -/
theorem filter_styledFrom_congr {kind : Char → Bool} {spans spans' : List Span}
    (h : atoms kind spans = atoms kind spans') (stack : List Text) :
    (styledFrom stack spans).filter (kind ·.1) = (styledFrom stack spans').filter (kind ·.1) := by
  rw [← styledFrom_atoms, h, styledFrom_atoms]

/-- The tags of a span list and its code points that are no blanks, one by one. -/
abbrev marks (spans : List Span) : List Span :=
  atoms (!Text.isBlank ·) spans

/-- The marks of some spans come before those of the spans behind them. -/
theorem marks_append (left right : List Span) : marks (left ++ right) = marks left ++ marks right :=
  atoms_append _ left right

/-! ### Reading -/

/-- A code point in front has the atoms of a span of its own. -/
theorem atoms_consChar (c : Char) (spans : List Span) :
    atoms kind (consChar c spans) = atoms kind (.text [c] :: spans) := by
  unfold consChar
  split
  · next content rest =>
    have hcons := atoms_text_append kind [c] content
    rw [List.singleton_append] at hcons
    simp [hcons]
  · rfl

/-- Text in front has the atoms of a span of its own. -/
theorem atoms_foldr_consChar (content : Text) (spans : List Span) :
    atoms kind (content.foldr consChar spans) = atoms kind (.text content :: spans) := by
  induction content with
  | nil => rfl
  | cons c later ih =>
    have hcons := atoms_text_append kind [c] later
    rw [List.singleton_append] at hcons
    rw [List.foldr_cons, atoms_consChar, atoms_cons, ih, atoms_cons, atoms_cons, hcons,
      List.append_assoc]

/-- The atoms of a list whose texts lack a bracket are found again in its written form. -/
theorem atoms_scan_join {bracket : Char} (hbracket : IsBracket bracket) {spans : List Span}
    (hnamed : ∀ span ∈ spans, span.isNamed = true) (hlacks : bracket ∉ plainText spans) :
    atoms kind (scan (join spans)) = atoms kind spans := by
  induction spans with
  | nil => simp [scan]
  | cons span later ih =>
    obtain ⟨hspan, hlater⟩ := List.forall_mem_cons.mp hnamed
    rw [plainText_cons] at hlacks
    have hread := ih hlater fun hmem => hlacks (List.mem_append_right _ hmem)
    rw [join_cons]
    cases span with
    | text content =>
      have hcontent : bracket ∉ content ++ plainText later := hlacks
      rw [Span.print, scan_text_append hbracket hlater hcontent, atoms_foldr_consChar, atoms_cons,
        hread, atoms_cons]
    | opening name =>
      rw [scan_of_readTag? (readTag?_print rfl hspan _), atoms_cons, hread, atoms_cons]
    | closing name =>
      rw [scan_of_readTag? (readTag?_print rfl hspan _), atoms_cons, hread, atoms_cons]

/-- Legible spans look the same once they are written out and read again. -/
theorem Legible.styled_parse {bracket : Char} (hbracket : IsBracket bracket) {spans : List Span}
    (h : Legible bracket spans) :
    ∃ found, parse (join spans) = .ok found ∧ bracket ∉ plainText found ∧
      styled found = styled spans := by
  obtain ⟨hnest, hplain⟩ := scan_join hbracket h.named h.lacks
  have hatoms := atoms_scan_join (fun _ => true) hbracket h.named h.lacks
  refine ⟨scan (join spans), parse_eq_ok_iff.mpr ⟨rfl, (hnest []).trans h.nested⟩, ?_, ?_⟩
  · rw [hplain]
    exact h.lacks
  · simpa [styled] using filter_styledFrom_congr hatoms []

end Markup

end TextGrid
