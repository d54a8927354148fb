import TextGrid.Proofs.RoundTrip

/-!
# Faulty markup

A text is refused exactly when the tags that stand in it are not well nested. The tag at fault is
the first one that no later text can make up for: a closing tag that does not match, or, where all
closing tags match, the innermost tag that is left open (`parse_blames`).
-/

namespace TextGrid.Markup

/-! ### Tags of a text -/

/-- Whether a tag is written at a position of a text. -/
def TagAt (text : Text) (position : Nat) (tag : Span) : Prop :=
  tag.isText = false ∧ tag.isNamed = true ∧ tag.print <+: text.drop position

/-- Whether a list holds every tag of a text, in the written order and with its position. -/
structure ListsTags (text : Text) (found : List (Nat × Span)) : Prop where
  ordered : found.Pairwise fun entry next => entry.1 < next.1
  mem_iff : ∀ position tag, (position, tag) ∈ found ↔ TagAt text position tag

/-- The tags of a span list whose written form begins at `start`, with their positions. -/
def placedFrom : Nat → List Span → List (Nat × Span)
  | _, [] => []
  | start, .text content :: later => placedFrom (start + content.length) later
  | start, tag :: later => (start, tag) :: placedFrom (start + tag.print.length) later

/-- A tag in front stands at the start, and later ones behind its written form. -/
theorem placedFrom_tag {tag : Span} (htag : tag.isText = false) (start : Nat)
    (later : List Span) :
    placedFrom start (tag :: later) =
      (start, tag) :: placedFrom (start + tag.print.length) later := by
  cases tag with
  | text content => cases htag
  | opening name => rfl
  | closing name => rfl

/-- The positions aside, the placed tags are the tags of the spans. -/
theorem map_snd_placedFrom (start : Nat) (spans : List Span) :
    (placedFrom start spans).map (·.2) = tags spans := by
  induction spans generalizing start with
  | nil => rfl
  | cons span later ih =>
    cases span with
    | text content => simp [placedFrom, ih]
    | opening name => simp [placedFrom, ih]
    | closing name => simp [placedFrom, ih]

/-- The tags of later spans stand behind the written form of the first ones. -/
theorem placedFrom_append (start : Nat) (left right : List Span) :
    placedFrom start (left ++ right) =
      placedFrom start left ++ placedFrom (start + (join left).length) right := by
  induction left generalizing start with
  | nil => rfl
  | cons span later ih =>
    cases span with
    | text content => simp [placedFrom, ih, Span.print, Nat.add_assoc]
    | opening name => simp [placedFrom, ih, Nat.add_assoc]
    | closing name => simp [placedFrom, ih, Nat.add_assoc]

/-- A code point in front moves all tags by one. -/
theorem placedFrom_consChar (start : Nat) (c : Char) (spans : List Span) :
    placedFrom start (consChar c spans) = placedFrom (start + 1) spans := by
  unfold consChar
  split
  · simp only [placedFrom, List.length_cons]
    congr 1
    omega
  · rfl

/-- A tag is not written as nothing. -/
theorem length_print_pos {tag : Span} (htag : tag.isText = false) : 0 < tag.print.length := by
  cases tag with
  | text content => cases htag
  | opening name => simp [Span.print]
  | closing name => simp [Span.print]

/-- No tag stands before the start. -/
theorem le_of_mem_placedFrom {start position : Nat} {tag : Span} {spans : List Span}
    (h : (position, tag) ∈ placedFrom start spans) : start ≤ position := by
  induction spans generalizing start with
  | nil => cases h
  | cons span later ih =>
    cases htag : span.isText with
    | true =>
      cases span with
      | text content =>
        have hle := ih h
        omega
      | opening name => cases htag
      | closing name => cases htag
    | false =>
      rw [placedFrom_tag htag] at h
      rcases List.mem_cons.mp h with hsame | hlater
      · obtain ⟨rfl, _⟩ := Prod.mk.inj hsame
        exact Nat.le_refl _
      · have hle := ih hlater
        omega

/-- Tags are placed in the written order. -/
theorem placedFrom_ordered (start : Nat) (spans : List Span) :
    (placedFrom start spans).Pairwise fun entry next => entry.1 < next.1 := by
  induction spans generalizing start with
  | nil => exact .nil
  | cons span later ih =>
    cases htag : span.isText with
    | true =>
      cases span with
      | text content => exact ih _
      | opening name => cases htag
      | closing name => cases htag
    | false =>
      rw [placedFrom_tag htag]
      refine .cons ?_ (ih _)
      rintro ⟨position, tag⟩ hmem
      have hle := le_of_mem_placedFrom hmem
      have hpos := length_print_pos htag
      show start < position
      omega

/-! ### Tags at a position -/

/-- A tag is read at the head of a text exactly if it is written there. -/
theorem readTag?_eq_some_iff {text after : Text} {tag : Span} :
    readTag? text = some (tag, after) ↔
      tag.isText = false ∧ tag.isNamed = true ∧ text = tag.print ++ after := by
  constructor
  · intro h
    obtain ⟨hnamed, htag⟩ := isNamed_of_readTag? h
    exact ⟨htag, hnamed, eq_append_of_readTag? h⟩
  · rintro ⟨htag, hnamed, rfl⟩
    exact readTag?_print htag hnamed after

/-- No tag stands in the empty text. -/
theorem not_tagAt_nil (position : Nat) (tag : Span) : ¬ TagAt [] position tag := by
  rintro ⟨htag, _, hinitial⟩
  rw [List.drop_nil, List.prefix_nil] at hinitial
  have hpos := length_print_pos htag
  rw [hinitial] at hpos
  cases hpos

/-- A tag stands one position further in a text with a code point in front. -/
theorem tagAt_succ {c : Char} {rest : Text} {position : Nat} {tag : Span} :
    TagAt (c :: rest) (position + 1) tag ↔ TagAt rest position tag := by
  simp [TagAt]

/-- A tag at the head of a text is the tag that is read there. -/
theorem tagAt_zero {text : Text} {tag : Span} :
    TagAt text 0 tag ↔ ∃ after, readTag? text = some (tag, after) := by
  simp only [readTag?_eq_some_iff]
  constructor
  · rintro ⟨htag, hnamed, after, hafter⟩
    exact ⟨after, htag, hnamed, hafter.symm⟩
  · rintro ⟨after, htag, hnamed, rfl⟩
    exact ⟨htag, hnamed, after, rfl⟩

/-- No tag begins inside a tag. -/
theorem tagAt_print_append {tag : Span} (htag : tag.isText = false) (hnamed : tag.isNamed = true)
    {after : Text} {position : Nat} {other : Span} :
    TagAt (tag.print ++ after) position other ↔
      (position = 0 ∧ other = tag) ∨
        ∃ later, position = tag.print.length + later ∧ TagAt after later other := by
  constructor
  · intro h
    by_cases hzero : position = 0
    · subst hzero
      obtain ⟨more, hread⟩ := tagAt_zero.mp h
      rw [readTag?_print htag hnamed after] at hread
      obtain ⟨rfl, _⟩ := Prod.mk.inj (Option.some.inj hread)
      exact Or.inl ⟨rfl, rfl⟩
    · obtain ⟨hother, hotherNamed, more, hmore⟩ := h
      by_cases hinside : position < tag.print.length
      · -- Such a tag would begin with a bracket that the first tag has inside of it.
        obtain ⟨inside, hprint, hbracket⟩ := exists_print_eq htag hnamed
        obtain ⟨_, hotherPrint, _⟩ := exists_print_eq hother hotherNamed
        obtain ⟨before, rfl⟩ := Nat.exists_eq_succ_of_ne_zero hzero
        rw [hprint, List.length_append, List.length_cons, List.length_singleton] at hinside
        have hlength : before < (inside ++ [']']).length := by
          rw [List.length_append, List.length_singleton]
          omega
        have hhead : (inside ++ [']'])[before] = '[' := by
          have hget := congrArg List.head? hmore
          rw [hotherPrint, hprint, List.cons_append, List.cons_append, List.cons_append,
            List.cons_append, List.drop_succ_cons, List.head?_drop,
            List.getElem?_append_left hlength, List.head?_cons,
            List.getElem?_eq_getElem hlength] at hget
          exact (Option.some.inj hget).symm
        have hmem : '[' ∈ inside ++ [']'] := hhead ▸ List.getElem_mem hlength
        exact absurd (by simpa using hmem) hbracket
      · obtain ⟨later, rfl⟩ := Nat.exists_eq_add_of_le (Nat.le_of_not_lt hinside)
        rw [List.drop_length_add_append] at hmore
        exact Or.inr ⟨later, rfl, hother, hotherNamed, more, hmore⟩
  · rintro (⟨rfl, rfl⟩ | ⟨later, rfl, hother, hotherNamed, hinitial⟩)
    · exact tagAt_zero.mpr ⟨after, readTag?_print htag hnamed after⟩
    · refine ⟨hother, hotherNamed, ?_⟩
      rwa [List.drop_length_add_append]

/-- A scan finds every tag of a text where it stands. -/
theorem mem_placedFrom_scan (start : Nat) (text : Text) {position : Nat} {tag : Span} :
    (position, tag) ∈ placedFrom start (scan text) ↔
      ∃ offset, position = start + offset ∧ TagAt text offset tag := by
  induction text using scan.induct generalizing start with
  | case1 => simp [scan, placedFrom, not_tagAt_nil]
  | case2 c rest found after hread ih =>
    obtain ⟨hfound, hnamed, htext⟩ := readTag?_eq_some_iff.mp hread
    rw [scan_of_readTag? hread, placedFrom_tag hfound, List.mem_cons, Prod.mk.injEq, ih, htext]
    simp only [tagAt_print_append hfound hnamed]
    constructor
    · rintro (⟨rfl, rfl⟩ | ⟨offset, rfl, htag⟩)
      · exact ⟨0, rfl, Or.inl ⟨rfl, rfl⟩⟩
      · exact ⟨_, Nat.add_assoc .., Or.inr ⟨offset, rfl, htag⟩⟩
    · rintro ⟨offset, rfl, ⟨rfl, rfl⟩ | ⟨later, rfl, htag⟩⟩
      · exact Or.inl ⟨rfl, rfl⟩
      · exact Or.inr ⟨later, (Nat.add_assoc ..).symm, htag⟩
  | case3 c rest hread ih =>
    rw [scan_of_readTag?_eq_none hread, placedFrom_consChar, ih]
    constructor
    · rintro ⟨offset, rfl, htag⟩
      exact ⟨offset + 1, by omega, tagAt_succ.mpr htag⟩
    · rintro ⟨offset, rfl, htag⟩
      cases offset with
      | zero =>
        obtain ⟨after, hsome⟩ := tagAt_zero.mp htag
        rw [hread] at hsome
        cases hsome
      | succ offset => exact ⟨offset, by omega, tagAt_succ.mp htag⟩

/-- The tags of a scan are all tags of the text. -/
theorem listsTags_scan (text : Text) : ListsTags text (placedFrom 0 (scan text)) := by
  refine ⟨placedFrom_ordered 0 _, fun position tag => ?_⟩
  rw [mem_placedFrom_scan]
  constructor
  · rintro ⟨offset, rfl, htag⟩
    rwa [Nat.zero_add]
  · intro htag
    exact ⟨position, (Nat.zero_add _).symm, htag⟩

/-! ### Tags left open -/

/-- Whether the tags of a list are well nested but for tags of these names that are left open, the
innermost first. -/
inductive LeavesOpen : List Text → List Span → Prop
  | nested {spans : List Span} (hnested : WellNested spans) : LeavesOpen [] spans
  | opening (name : Text) {outer : List Text} {before inner : List Span}
    (hbefore : LeavesOpen outer before) (hinner : WellNested inner) :
    LeavesOpen (name :: outer) (before ++ .opening name :: inner)

/-- Well-nested lists stay well nested one behind the other. -/
theorem WellNested.append {left right : List Span} (hleft : WellNested left)
    (hright : WellNested right) : WellNested (left ++ right) := by
  rw [wellNested_iff] at hleft hright ⊢
  rw [openAfter_append, hleft, Option.bind_some, hright]

/-- A well-nested list behind others leaves the same tags open. -/
theorem LeavesOpen.append {opened : List Text} {spans later : List Span}
    (h : LeavesOpen opened spans) (hlater : WellNested later) :
    LeavesOpen opened (spans ++ later) := by
  cases h with
  | nested hnested => exact .nested (hnested.append hlater)
  | opening name hbefore hinner =>
    rw [List.append_assoc, List.cons_append]
    exact .opening name hbefore (hinner.append hlater)

/-- A run from no open tags leaves its names open. -/
theorem leavesOpen_of_openAfter {opened : List Text} {spans : List Span}
    (h : openAfter [] spans = some opened) : LeavesOpen opened spans := by
  induction spans using List.reverseRecOn generalizing opened with
  | nil =>
    obtain rfl : [] = opened := Option.some.inj h
    exact .nested .nil
  | append_singleton spans span ih =>
    obtain ⟨between, hspans, hspan⟩ := exists_openAfter_of_append h
    have hbetween := ih hspans
    cases span with
    | text content =>
      obtain rfl : between = opened := Option.some.inj hspan
      exact hbetween.append (.text content .nil)
    | opening name =>
      obtain rfl : name :: between = opened := Option.some.inj hspan
      exact .opening name hbetween .nil
    | closing name =>
      cases hbetween with
      | nested hnested => cases hspan
      | opening innermost hbefore hinner =>
        obtain ⟨rfl, rfl⟩ : innermost = name ∧ _ = opened := by simpa [openAfter] using hspan
        rw [List.append_assoc]
        exact hbefore.append (hinner.pair innermost .nil)

/-! ### The fault that is found -/

/-- How a closing tag fails to match the names that are open before it. -/
inductive Unmatched (name : Text) : List Text → MarkupFault → Prop
  | notOpened : Unmatched name [] .notOpened
  | mismatched {innermost : Text} (outer : List Text) (hname : innermost ≠ name) :
    Unmatched name (innermost :: outer) (.mismatched innermost)

/-- A check stops at a closing tag that does not match. -/
theorem Unmatched.openAfter_eq_none {name : Text} {opened : List Text} {fault : MarkupFault}
    (h : Unmatched name opened fault) (later : List Span) :
    openAfter opened (.closing name :: later) = none := by
  cases h with
  | notOpened => rfl
  | mismatched outer hname => simp [openAfter, hname]

/-- Whether the check of a span list stops at a closing tag that does not match. -/
def StopsAt (start : Nat) (stack : List Text) (spans : List Span) (fault : MarkupError) : Prop :=
  ∃ before name later opened, spans = before ++ .closing name :: later ∧
    openAfter stack before = some opened ∧ Unmatched name opened fault.fault ∧
    fault.tag = Span.print (.closing name) ∧ fault.position = start + (join before).length

/-- Whether the check of a span list goes through and leaves a tag of it open, with none further
inside. -/
def LeavesAt (start : Nat) (stack : List Text) (spans : List Span) (fault : MarkupError) : Prop :=
  ∃ before name inner outer, spans = before ++ .opening name :: inner ∧
    openAfter stack before = some outer ∧ openAfter [] inner = some [] ∧
    fault = ⟨.neverClosed, Span.print (.opening name), start + (join before).length⟩

/-- One span further in front, the check stops at the same tag. -/
theorem StopsAt.cons {start : Nat} {stack stack' : List Text} {span : Span} {later : List Span}
    {fault : MarkupError} (h : StopsAt (start + span.print.length) stack' later fault)
    (hspan : ∀ spans, openAfter stack (span :: spans) = openAfter stack' spans) :
    StopsAt start stack (span :: later) fault := by
  obtain ⟨before, name, rest, opened, rfl, hrun, hunmatched, htag, hposition⟩ := h
  refine ⟨span :: before, name, rest, opened, rfl, (hspan before).trans hrun, hunmatched, htag, ?_⟩
  rw [hposition, join_cons, List.length_append, Nat.add_assoc]

/-- One span further in front, the check leaves the same tag open. -/
theorem LeavesAt.cons {start : Nat} {stack stack' : List Text} {span : Span} {later : List Span}
    {fault : MarkupError} (h : LeavesAt (start + span.print.length) stack' later fault)
    (hspan : ∀ spans, openAfter stack (span :: spans) = openAfter stack' spans) :
    LeavesAt start stack (span :: later) fault := by
  obtain ⟨before, name, inner, outer, rfl, hrun, hinner, rfl⟩ := h
  refine ⟨span :: before, name, inner, outer, rfl, (hspan before).trans hrun, hinner, ?_⟩
  rw [join_cons, List.length_append, Nat.add_assoc]

/-- What a failed check found: a closing tag that does not match, a tag of the list that is left
open, or a tag open before the list that the list does not close. -/
theorem checkNesting_eq_error {position : Nat} {stack : List (Text × Nat)} {spans : List Span}
    {fault : MarkupError} (h : checkNesting position stack spans = .error fault) :
    StopsAt position (stack.map (·.1)) spans fault ∨
      LeavesAt position (stack.map (·.1)) spans fault ∨
      ∃ closed name place outer, stack = closed ++ (name, place) :: outer ∧
        openAfter (closed.map (·.1)) spans = some [] ∧
        fault = ⟨.neverClosed, Span.print (.opening name), place⟩ := by
  induction spans generalizing position stack with
  | nil =>
    cases stack with
    | nil => cases h
    | cons entry outer =>
      right
      right
      exact ⟨[], entry.1, entry.2, outer, rfl, rfl, (Except.error.inj h).symm⟩
  | cons span later ih =>
    cases span with
    | text content =>
      have hrest : checkNesting (position + content.length) stack later = .error fault := by
        simpa only [checkNesting] using h
      rcases ih hrest with hstop | hleave | hstack
      · exact Or.inl (hstop.cons fun spans => rfl)
      · exact Or.inr (Or.inl (hleave.cons fun spans => rfl))
      · exact Or.inr (Or.inr hstack)
    | opening name =>
      have hrest : checkNesting (position + (Span.print (.opening name)).length)
          ((name, position) :: stack) later = .error fault := by
        simpa only [checkNesting] using h
      rcases ih hrest with hstop | hleave | ⟨closed, other, place, outer, hstack, hrun, hfault⟩
      · exact Or.inl (hstop.cons fun spans => rfl)
      · exact Or.inr (Or.inl (hleave.cons fun spans => rfl))
      · right
        cases closed with
        | nil =>
          left
          obtain ⟨hentry, rfl⟩ := List.cons.inj hstack
          obtain ⟨rfl, rfl⟩ := Prod.mk.inj hentry
          exact ⟨[], name, later, stack.map (·.1), rfl, rfl, hrun, hfault⟩
        | cons entry closed =>
          right
          obtain ⟨rfl, rfl⟩ := List.cons.inj hstack
          exact ⟨closed, other, place, outer, rfl, hrun, hfault⟩
    | closing name =>
      cases stack with
      | nil =>
        left
        obtain rfl := Except.error.inj h
        exact ⟨[], name, later, [], rfl, rfl, .notOpened, rfl, rfl⟩
      | cons entry outer =>
        by_cases hname : entry.1 = name
        · have hrest : checkNesting (position + (Span.print (.closing name)).length) outer later =
              .error fault := by
            simpa only [checkNesting, if_pos hname] using h
          have hspan (names : List Text) (spans : List Span) :
              openAfter (entry.1 :: names) (.closing name :: spans) = openAfter names spans := by
            rw [openAfter, if_pos hname]
          rcases ih hrest with hstop | hleave | ⟨closed, other, place, rest, rfl, hrun, hfault⟩
          · exact Or.inl (hstop.cons (hspan _))
          · exact Or.inr (Or.inl (hleave.cons (hspan _)))
          · right
            right
            exact ⟨entry :: closed, other, place, rest, rfl, (hspan _ _).trans hrun, hfault⟩
        · left
          simp only [checkNesting, if_neg hname] at h
          obtain rfl := Except.error.inj h
          exact ⟨[], name, later, entry.1 :: outer.map (·.1), rfl, rfl, .mismatched _ hname, rfl,
            rfl⟩

/-! ### Continuations of a text -/

/-- Whether a list is found again in its written form. -/
structure Faithful (spans : List Span) : Prop where
  filled : Span.text [] ∉ spans
  apart : Apart spans
  literal : ∀ content, Span.text content ∈ spans → ¬ HasTag content
  named : ∀ span ∈ spans, span.isNamed = true

/-- The spans of a scan are found again in their written form. -/
theorem faithful_scan (text : Text) : Faithful (scan text) := by
  obtain ⟨_, hnamed, hfilled⟩ := scan_spec text
  obtain ⟨hapart, hliteral⟩ := scan_apart_literal text
  exact ⟨hfilled, hapart, hliteral, hnamed⟩

namespace Faithful

/-- A faithful list is what its written form is scanned to. -/
theorem scan_join {spans : List Span} (h : Faithful spans) : scan (join spans) = spans :=
  scan_join_of_literal h.filled h.apart h.literal h.named

/-- The first part of a faithful list is faithful. -/
theorem of_append {left right : List Span} (h : Faithful (left ++ right)) : Faithful left where
  filled hmem := h.filled (List.mem_append_left _ hmem)
  apart := (List.isChain_append.mp h.apart).1
  literal content hmem := h.literal content (List.mem_append_left _ hmem)
  named span hmem := h.named span (List.mem_append_left _ hmem)

/-- A faithful list stays so with a tag behind it. -/
theorem concat {spans : List Span} (h : Faithful spans) (tag : Span) (htag : tag.isText = false)
    (hnamed : tag.isNamed = true) : Faithful (spans ++ [tag]) := by
  have htext : ∀ content, Span.text content ∈ spans ++ [tag] → Span.text content ∈ spans := by
    intro content hmem
    refine (List.mem_append.mp hmem).resolve_right fun hlast => ?_
    rw [← List.mem_singleton.mp hlast] at htag
    cases htag
  constructor
  · exact fun hmem => h.filled (htext [] hmem)
  · refine List.isChain_append.mpr ⟨h.apart, List.isChain_singleton _, fun _ _ next hnext => ?_⟩
    obtain rfl : tag = next := by simpa using hnext
    exact Or.inr htag
  · exact fun content hmem => h.literal content (htext content hmem)
  · refine List.forall_mem_append.mpr ⟨h.named, ?_⟩
    simpa using hnamed

/-- A faithful list stays so with closing tags behind it. -/
theorem append_closings {spans : List Span} (h : Faithful spans) {names : List Text}
    (hnames : ∀ name ∈ names, isTagName name = true) :
    Faithful (spans ++ names.map .closing) := by
  induction names generalizing spans with
  | nil => simpa using h
  | cons name outer ih =>
    obtain ⟨hname, houter⟩ := List.forall_mem_cons.mp hnames
    simpa using ih (h.concat (.closing name) rfl hname) houter

/-- Behind a tag a text is scanned as if it stood alone. -/
theorem scan_append {before : List Span} {tag : Span} (h : Faithful (before ++ [tag]))
    (htag : tag.isText = false) (more : Text) :
    scan (join (before ++ [tag]) ++ more) = before ++ tag :: scan more := by
  induction before with
  | nil =>
    have hread := readTag?_print htag (h.named tag (by simp)) more
    simpa using scan_of_readTag? hread
  | cons span later ih =>
    have hlater : Faithful (later ++ [tag]) :=
      ⟨fun hmem => h.filled (List.mem_cons_of_mem _ hmem), (List.isChain_cons.mp h.apart).2,
        fun content hmem => h.literal content (List.mem_cons_of_mem _ hmem),
        fun next hmem => h.named next (List.mem_cons_of_mem _ hmem)⟩
    have hscan := ih hlater
    have hnamed := h.named span (List.mem_cons_self ..)
    rw [List.cons_append, join_cons, List.append_assoc]
    cases span with
    | text content =>
      have hnext : ∀ next ∈ (later ++ [tag]).head?, next.isText = false := by
        intro next hmem
        refine ((List.isChain_cons.mp h.apart).1 next hmem).resolve_left ?_
        simp [Span.isText]
      have hbracket : ∀ c ∈ (join (later ++ [tag]) ++ more).head?, c = '[' := by
        obtain ⟨next, others, hcons⟩ := List.exists_cons_of_ne_nil
          (List.append_ne_nil_of_right_ne_nil later (List.cons_ne_nil tag []))
        have htagNext : next.isText = false := hnext next (by simp [hcons])
        have hnamedNext := hlater.named next (by simp [hcons])
        obtain ⟨inside, hprint, _⟩ := exists_print_eq htagNext hnamedNext
        intro c hc
        rw [hcons, join_cons, hprint] at hc
        simpa [eq_comm] using hc
      have hhead : ∀ next ∈ (later ++ tag :: scan more).head?, next.isText = false := by
        cases later with
        | nil => simpa using htag
        | cons next others => simpa using hnext next (by simp)
      have hne : content ≠ [] := fun hnil => h.filled (by simp [hnil])
      rw [Span.print, scan_append_of_literal (h.literal content (List.mem_cons_self ..)) hbracket,
        hscan, foldr_consChar hne hhead, List.cons_append]
    | opening name => rw [scan_of_readTag? (readTag?_print rfl hnamed _), hscan, List.cons_append]
    | closing name => rw [scan_of_readTag? (readTag?_print rfl hnamed _), hscan, List.cons_append]

end Faithful

/-- Whether a text is read. -/
def Accepted (text : Text) : Prop :=
  ∃ spans, parse text = .ok spans

/-- The closing tags for names, in this order. -/
def closers (names : List Text) : Text :=
  join (names.map .closing)

/-- A text is read exactly if its tags are well nested. -/
theorem accepted_iff {text : Text} : Accepted text ↔ openAfter [] (scan text) = some [] := by
  simp [Accepted, parse_eq_ok_iff]

/-- A list that leaves tags open is read once closing tags for them follow. -/
theorem Faithful.accepted {spans : List Span} {opened : List Text} (h : Faithful spans)
    (hrun : openAfter [] spans = some opened) : Accepted (join spans ++ closers opened) := by
  have hnames := isTagName_of_openAfter (by simp) h.named hrun
  have hscan := (h.append_closings hnames).scan_join
  have hclose := openAfter_map_closing opened []
  rw [List.append_nil] at hclose
  rw [closers, ← join_append, accepted_iff, hscan, openAfter_append, hrun, Option.bind_some, hclose]

/-! ### The tag at fault -/

/-- Whether a fault is a closing tag that no continuation of the text makes up for, while the text
before it lacks nothing but closing tags for the names that are open there. -/
def BlamesClosing (text : Text) (fault : MarkupError) : Prop :=
  ∃ name found opened, isTagName name = true ∧ fault.tag = Span.print (.closing name) ∧
    (∀ more, ¬ Accepted (text.take (fault.position + fault.tag.length) ++ more)) ∧
    ListsTags (text.take fault.position) found ∧ LeavesOpen opened (found.map (·.2)) ∧
    Unmatched name opened fault.fault ∧ Accepted (text.take fault.position ++ closers opened)

/-- Whether a fault is the innermost of the tags that are left open in a text which lacks nothing
but closing tags for them. -/
def BlamesOpening (text : Text) (fault : MarkupError) : Prop :=
  ∃ name before inner outer, isTagName name = true ∧ fault.tag = Span.print (.opening name) ∧
    fault.fault = .neverClosed ∧
    ListsTags text (before ++ (fault.position, .opening name) :: inner) ∧
    LeavesOpen outer (before.map (·.2)) ∧ WellNested (inner.map (·.2)) ∧
    Accepted (text ++ closers (name :: outer))

/-- A closing tag at which the check stops stands in the text and is to blame. -/
theorem blamesClosing_of_stopsAt {text : Text} {fault : MarkupError}
    (h : StopsAt 0 [] (scan text) fault) :
    (text.drop fault.position).take fault.tag.length = fault.tag ∧ BlamesClosing text fault := by
  obtain ⟨before, name, later, opened, hspans, hrun, hunmatched, htag, hposition⟩ := h
  rw [Nat.zero_add] at hposition
  have hscanned := faithful_scan text
  rw [hspans, List.append_cons] at hscanned
  have hfront : Faithful (before ++ [.closing name]) := hscanned.of_append
  have hbefore : Faithful before := hfront.of_append
  have hname : isTagName name = true := hfront.named (.closing name) (by simp)
  have htext : text = join before ++ (fault.tag ++ join later) := by
    rw [htag, ← join_cons, ← join_append, ← hspans, (scan_spec text).1]
  have htake : text.take fault.position = join before := by
    rw [htext, hposition, List.take_left]
  have hdrop : text.drop fault.position = fault.tag ++ join later := by
    rw [htext, hposition, List.drop_left]
  have htakeTag : text.take (fault.position + fault.tag.length) =
      join (before ++ [.closing name]) := by
    rw [List.take_add, htake, hdrop, List.take_left, htag, join_append, join_cons, join_nil,
      List.append_nil]
  refine ⟨by rw [hdrop, List.take_left], name, placedFrom 0 before, opened, hname, htag, ?_, ?_, ?_,
    hunmatched, ?_⟩
  · intro more haccepted
    rw [htakeTag, accepted_iff, hfront.scan_append rfl, openAfter_append, hrun, Option.bind_some,
      hunmatched.openAfter_eq_none] at haccepted
    cases haccepted
  · have hlists := listsTags_scan (join before)
    rwa [hbefore.scan_join, ← htake] at hlists
  · rw [map_snd_placedFrom]
    exact leavesOpen_of_openAfter ((openAfter_tags [] before).trans hrun)
  · rw [htake]
    exact hbefore.accepted hrun

/-- A tag that the check leaves open stands in the text and is to blame. -/
theorem blamesOpening_of_leavesAt {text : Text} {fault : MarkupError}
    (h : LeavesAt 0 [] (scan text) fault) :
    (text.drop fault.position).take fault.tag.length = fault.tag ∧ BlamesOpening text fault := by
  obtain ⟨before, name, inner, outer, hspans, hrun, hinner, rfl⟩ := h
  have hscanned := faithful_scan text
  have hlists := listsTags_scan text
  have hwhole := hscanned
  rw [hspans] at hscanned hlists
  rw [placedFrom_append, placedFrom_tag rfl] at hlists
  have hname : isTagName name = true := hscanned.named (.opening name) (by simp)
  have htext : text = join before ++ (Span.print (.opening name) ++ join inner) := by
    rw [← join_cons, ← join_append, ← hspans, (scan_spec text).1]
  have hopened : openAfter [] (scan text) = some (name :: outer) := by
    have hframe := openAfter_frame (name :: outer) hinner
    rw [hspans, openAfter_append, hrun, Option.bind_some]
    exact hframe
  refine ⟨?_, name, _, _, outer, hname, rfl, rfl, hlists, ?_, ?_, ?_⟩
  · rw [Nat.zero_add]
    conv_lhs => rw [htext, List.drop_left, List.take_left]
  · rw [map_snd_placedFrom]
    exact leavesOpen_of_openAfter ((openAfter_tags [] before).trans hrun)
  · rw [map_snd_placedFrom]
    exact wellNested_iff.mpr ((openAfter_tags [] inner).trans hinner)
  · have haccepted := hwhole.accepted hopened
    rwa [(scan_spec text).1] at haccepted

/-- A text is read exactly when the tags that stand in it are well nested. Otherwise the fault names
a tag where it is written: a closing tag behind which every text is refused, while the text before
it is read once its open tags are closed, or the innermost of the tags left open in a text that is
read once these are closed. -/
theorem parse_blames (text : Text) :
    ∃ found, ListsTags text found ∧ (Accepted text ↔ WellNested (found.map (·.2))) ∧
      ∀ fault, parse text = .error fault →
        (text.drop fault.position).take fault.tag.length = fault.tag ∧
          (BlamesClosing text fault ∨ BlamesOpening text fault) := by
  refine ⟨placedFrom 0 (scan text), listsTags_scan text, ?_, fun fault h => ?_⟩
  · rw [accepted_iff, map_snd_placedFrom, wellNested_iff, openAfter_tags]
  · have hcheck : checkNesting 0 [] (scan text) = .error fault := by
      rw [parse_eq_parseTags, parseTags] at h
      cases hcheck : checkNesting 0 [] (scan text) with
      | error other => simpa [hcheck] using h
      | ok checked => simp [hcheck] at h
    rcases checkNesting_eq_error hcheck with hstop | hleave | ⟨closed, _, _, _, hstack, _⟩
    · obtain ⟨hplace, hblames⟩ := blamesClosing_of_stopsAt hstop
      exact ⟨hplace, Or.inl hblames⟩
    · obtain ⟨hplace, hblames⟩ := blamesOpening_of_leavesAt hleave
      exact ⟨hplace, Or.inr hblames⟩
    · simp at hstack

/-- The first tag that does not match is at fault; half tags and tags left open behind it are
not. -/
example : parse "[[a][b]x[/a] [c] [1".toList =
    .error ⟨.mismatched "b".toList, "[/a]".toList, 8⟩ := by
  decide +kernel

end TextGrid.Markup
