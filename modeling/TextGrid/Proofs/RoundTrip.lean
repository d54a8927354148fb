import Mathlib.Data.List.Chain
import TextGrid.Proofs.Reading

/-!
# Reading and writing are inverse

What reading finds in a text is canonical: no text is empty or holds a tag, no two texts are
neighbours, and the tags are named and well nested. A canonical list is found again in its written
form, whatever stray brackets its texts hold, since no tag begins in one span and ends in another
(`parse_eq_ok_iff_canonical`).
-/

namespace TextGrid.Markup

/-! ### Well-nested tags -/

/-- Span lists in which every tag is paired with one of the same name, and the tags between the two
are paired among themselves. -/
inductive WellNested : List Span → Prop
  | nil : WellNested []
  | text (content : Text) {later : List Span} (hlater : WellNested later) :
      WellNested (.text content :: later)
  | pair (name : Text) {inner later : List Span} (hinner : WellNested inner)
      (hlater : WellNested later) :
      WellNested (.opening name :: inner ++ .closing name :: later)

/-- Whether a list closes the tags of a stack one after another, the innermost first, with
well-nested tags before, between and after the closing tags. -/
def Closes : List Text → List Span → Prop
  | [], spans => WellNested spans
  | name :: outer, spans =>
    ∃ inner later, spans = inner ++ .closing name :: later ∧ WellNested inner ∧ Closes outer later

/-- What stands before the first closing tag may grow, as long as its tags stay paired. -/
theorem Closes.grow {stack : List Text} {spans front : List Span} (h : Closes stack spans)
    (hfront : ∀ spans, WellNested spans → WellNested (front ++ spans)) :
    Closes stack (front ++ spans) := by
  cases stack with
  | nil => exact hfront spans h
  | cons name outer =>
    obtain ⟨inner, later, rfl, hinner, hlater⟩ := h
    exact ⟨front ++ inner, later, by simp, hfront inner hinner, hlater⟩

/-- A run that leaves nothing open closes all that was open before it. -/
theorem closes_of_openAfter {stack : List Text} {spans : List Span}
    (h : openAfter stack spans = some []) : Closes stack spans := by
  induction spans generalizing stack with
  | nil =>
    obtain rfl : stack = [] := by simpa [openAfter] using h
    exact WellNested.nil
  | cons span later ih =>
    cases span with
    | text content =>
      have hfront : ∀ spans, WellNested spans → WellNested ([.text content] ++ spans) :=
        fun spans hspans => hspans.text content
      exact (ih h).grow hfront
    | opening name =>
      -- The tag is paired with the first closing tag that the rest leaves for the stack.
      obtain ⟨inner, rest, rfl, hinner, hrest⟩ := ih h
      have hfront : ∀ spans, WellNested spans →
          WellNested (.opening name :: inner ++ [.closing name] ++ spans) := by
        intro spans hspans
        simpa using hinner.pair name hspans
      simpa using hrest.grow hfront
    | closing name =>
      cases stack with
      | nil => simp [openAfter] at h
      | cons innermost outer =>
        obtain ⟨rfl, hlater⟩ : innermost = name ∧ openAfter outer later = some [] := by
          simpa [openAfter] using h
        exact ⟨[], later, rfl, WellNested.nil, ih hlater⟩

/-- A run with a stack goes through exactly for lists whose tags are paired. -/
theorem wellNested_iff {spans : List Span} :
    WellNested spans ↔ openAfter [] spans = some [] := by
  constructor
  · intro h
    induction h with
    | nil => rfl
    | text content _ ih => exact ih
    | @pair name inner later _ _ ihInner ihLater =>
      have hframe := openAfter_frame [name] ihInner
      simp only [List.nil_append] at hframe
      simp [openAfter, openAfter_append, hframe, ihLater]
  · intro h
    have hcloses := closes_of_openAfter h
    exact hcloses

/-! ### Tags in a text -/

/-- Whether a tag stands somewhere in a text. -/
def HasTag (text : Text) : Prop :=
  ∃ tag : Span, tag.isText = false ∧ tag.isNamed = true ∧ tag.print <:+: text

/-- No tag stands in the empty text. -/
theorem not_hasTag_nil : ¬ HasTag [] := by
  rintro ⟨tag, htag, _, hinfix⟩
  cases tag with
  | text content => simp [Span.isText] at htag
  | opening name => simp [Span.print] at hinfix
  | closing name => simp [Span.print] at hinfix

/-- A tag at the head of a text is read there whatever follows the text. -/
theorem readTag?_append_of_eq_some {text after : Text} {tag : Span}
    (h : readTag? text = some (tag, after)) (rest : Text) :
    readTag? (text ++ rest) = some (tag, after ++ rest) := by
  obtain ⟨hnamed, htag⟩ := isNamed_of_readTag? h
  rw [eq_append_of_readTag? h, List.append_assoc]
  exact readTag?_print htag hnamed (after ++ rest)

/-- A tag stands in a text if it stands at its head or in what comes after the first code point. -/
theorem hasTag_cons {c : Char} {rest : Text} :
    HasTag (c :: rest) ↔ (∃ found, readTag? (c :: rest) = some found) ∨ HasTag rest := by
  constructor
  · rintro ⟨tag, htag, hnamed, hinfix⟩
    rcases List.infix_cons_iff.mp hinfix with ⟨after, hafter⟩ | hrest
    · left
      rw [← hafter]
      exact ⟨_, readTag?_print htag hnamed after⟩
    · right
      exact ⟨tag, htag, hnamed, hrest⟩
  · rintro (⟨⟨tag, after⟩, hread⟩ | ⟨tag, htag, hnamed, hinfix⟩)
    · obtain ⟨hnamed, htag⟩ := isNamed_of_readTag? hread
      have hprefix : tag.print <+: c :: rest := ⟨after, (eq_append_of_readTag? hread).symm⟩
      exact ⟨tag, htag, hnamed, hprefix.isInfix⟩
    · exact ⟨tag, htag, hnamed, List.infix_cons hinfix⟩

/-- No tag begins in a text and ends after it, where a tag or nothing follows the text. -/
theorem readTag?_append_of_eq_none {text rest : Text} (hne : text ≠ [])
    (h : readTag? text = none) (hrest : ∀ c ∈ rest.head?, c = '[') :
    readTag? (text ++ rest) = none := by
  cases hread : readTag? (text ++ rest) with
  | none => rfl
  | some found =>
    obtain ⟨tag, after⟩ := found
    obtain ⟨hnamed, htag⟩ := isNamed_of_readTag? hread
    have hunread : ∀ more, text ≠ tag.print ++ more := by
      rintro more rfl
      rw [readTag?_print htag hnamed more] at h
      cases h
    rcases List.append_eq_append_iff.mp (eq_append_of_readTag? hread) with
      ⟨left, hprint, hleft⟩ | ⟨more, htext, _⟩
    · obtain ⟨inside, hinside, hbracket⟩ := exists_print_eq htag hnamed
      obtain ⟨first, later, rfl⟩ := List.exists_cons_of_ne_nil hne
      -- What the tag takes of the rest is empty, or holds the bracket that the rest begins with.
      cases left with
      | nil => exact absurd (by simpa using hprint.symm) (hunread [])
      | cons c left =>
        obtain rfl : c = '[' := hrest c (by simp [hleft])
        have htail : inside ++ [']'] = later ++ '[' :: left := by
          rw [hinside] at hprint
          exact (List.cons.inj hprint).2
        have hmem : '[' ∈ inside ++ [']'] := by
          rw [htail]
          simp
        exact absurd (by simpa using hmem) hbracket
    · exact absurd htext (hunread more)

/-! ### What a scan finds -/

/-- A code point is put in front of a text, of its own if the list begins with none. -/
theorem consChar_cases (c : Char) (spans : List Span) :
    ∃ content later, consChar c spans = .text (c :: content) :: later ∧
      (spans = .text content :: later ∨
        content = [] ∧ spans = later ∧ ∀ span ∈ later.head?, span.isText = false) := by
  cases spans with
  | nil => exact ⟨[], [], rfl, Or.inr ⟨rfl, rfl, by simp⟩⟩
  | cons span later =>
    cases span with
    | text content => exact ⟨content, later, rfl, Or.inl rfl⟩
    | opening name => exact ⟨[], _, rfl, Or.inr ⟨rfl, rfl, by simp [Span.isText]⟩⟩
    | closing name => exact ⟨[], _, rfl, Or.inr ⟨rfl, rfl, by simp [Span.isText]⟩⟩

/-- Whether no two texts of a list are neighbours. -/
def Apart (spans : List Span) : Prop :=
  spans.IsChain fun span next => span.isText = false ∨ next.isText = false

/-- A scan finds texts without tags, and no two of them side by side. -/
theorem scan_apart_literal (text : Text) :
    Apart (scan text) ∧ ∀ content, Span.text content ∈ scan text → ¬ HasTag content := by
  induction text using scan.induct with
  | case1 => simp [scan, Apart]
  | case2 c rest tag after hread ih =>
    obtain ⟨hapart, hliteral⟩ := ih
    obtain ⟨_, htag⟩ := isNamed_of_readTag? hread
    rw [scan_of_readTag? hread]
    constructor
    · exact List.IsChain.cons hapart fun _ _ => Or.inl htag
    · intro content hcontent
      rcases List.mem_cons.mp hcontent with rfl | hlater
      · simp [Span.isText] at htag
      · exact hliteral content hlater
  | case3 c rest hread ih =>
    obtain ⟨hapart, hliteral⟩ := ih
    rw [scan_of_readTag?_eq_none hread]
    have hjoin := (scan_spec rest).1
    generalize scan rest = spans at hapart hliteral hjoin
    obtain ⟨content, later, hcons, hspans⟩ := consChar_cases c spans
    rw [hcons]
    -- A tag at the head of the grown text would have been read at the head of the whole.
    have hgrown : ∀ more, rest = content ++ more → ¬ HasTag content →
        ¬ HasTag (c :: content) := by
      rintro more rfl hcontent hgrown
      rcases hasTag_cons.mp hgrown with ⟨⟨tag, after⟩, hfound⟩ | htail
      · have hread' := readTag?_append_of_eq_some hfound more
        rw [List.cons_append, hread] at hread'
        cases hread'
      · exact hcontent htail
    rcases hspans with rfl | ⟨rfl, rfl, hhead⟩
    · rw [join_cons] at hjoin
      constructor
      · have hlater := List.isChain_cons.mp hapart
        exact List.IsChain.cons hlater.2 hlater.1
      · intro other hother
        rcases List.mem_cons.mp hother with hsame | hmem
        · rw [Span.text.inj hsame]
          exact hgrown _ hjoin.symm (hliteral content (List.mem_cons_self ..))
        · exact hliteral other (List.mem_cons_of_mem _ hmem)
    · constructor
      · exact List.IsChain.cons hapart fun span hspan => Or.inr (hhead span hspan)
      · intro other hother
        rcases List.mem_cons.mp hother with hsame | hmem
        · rw [Span.text.inj hsame]
          exact hgrown rest rfl not_hasTag_nil
        · exact hliteral other hmem

/-! ### Scanning a written list -/

/-- A text without tags is scanned code point by code point, where a tag or nothing follows it. -/
theorem scan_append_of_literal {content rest : Text} (hliteral : ¬ HasTag content)
    (hrest : ∀ c ∈ rest.head?, c = '[') :
    scan (content ++ rest) = content.foldr consChar (scan rest) := by
  induction content with
  | nil => rfl
  | cons c later ih =>
    rw [hasTag_cons, not_or, not_exists] at hliteral
    obtain ⟨hhead, hlater⟩ := hliteral
    have hnone : readTag? (c :: later) = none := Option.eq_none_iff_forall_ne_some.mpr hhead
    have hread := readTag?_append_of_eq_none (List.cons_ne_nil c later) hnone hrest
    rw [List.cons_append] at hread ⊢
    rw [scan_of_readTag?_eq_none hread, ih hlater, List.foldr_cons]

/-- Code points put in front of a list that does not begin with a text make up one text. -/
theorem foldr_consChar {content : Text} (hne : content ≠ []) {spans : List Span}
    (hhead : ∀ span ∈ spans.head?, span.isText = false) :
    content.foldr consChar spans = .text content :: spans := by
  induction content with
  | nil => exact absurd rfl hne
  | cons c later ih =>
    cases later with
    | nil =>
      obtain ⟨content, others, hcons, hspans⟩ := consChar_cases c spans
      rcases hspans with rfl | ⟨rfl, rfl, _⟩
      · have htext := hhead (.text content) (by simp)
        cases htext
      · exact hcons
    | cons next others => rw [List.foldr_cons, ih (List.cons_ne_nil next others), consChar]

/-- The spans of a text without tags. -/
def textSpans : Text → List Span
  | [] => []
  | content => [.text content]

/-- A text as one span is written as itself. -/
theorem join_textSpans (content : Text) : join (textSpans content) = content := by
  cases content <;> simp [textSpans, Span.print]

/-- A text as one span has itself as its text. -/
theorem plainText_textSpans (content : Text) : plainText (textSpans content) = content := by
  cases content <;> simp [textSpans, Span.content]

/-- A text as one span changes nothing in what is open. -/
theorem openAfter_textSpans (stack : List Text) (content : Text) :
    openAfter stack (textSpans content) = some stack := by
  cases content <;> simp [textSpans, openAfter]

/-- A text in which no tag stands is scanned to one span. -/
theorem scan_of_literal {content : Text} (hliteral : ¬ HasTag content) :
    scan content = textSpans content := by
  have hscan : scan (content ++ []) = content.foldr consChar (scan []) :=
    scan_append_of_literal hliteral (by simp)
  cases content with
  | nil => rw [scan, textSpans]
  | cons c later =>
    rw [List.append_nil, foldr_consChar (List.cons_ne_nil c later) (by simp [scan]), scan] at hscan
    exact hscan

/-- The written form of a list that does not begin with a text begins with a bracket. -/
theorem head?_join {spans : List Span} (hnamed : ∀ span ∈ spans, span.isNamed = true)
    (hhead : ∀ span ∈ spans.head?, span.isText = false) :
    ∀ c ∈ (join spans).head?, c = '[' := by
  intro c hc
  cases spans with
  | nil => simp at hc
  | cons span later =>
    have htag := hhead span (by simp)
    obtain ⟨inside, hprint, _⟩ := exists_print_eq htag (hnamed span (List.mem_cons_self ..))
    rw [join_cons, hprint] at hc
    simpa [eq_comm] using hc

/-- A list whose texts are apart, hold something and hold no tag is found in its written form. -/
theorem scan_join_of_literal {spans : List Span} (hfilled : Span.text [] ∉ spans)
    (hapart : Apart spans) (hliteral : ∀ content, Span.text content ∈ spans → ¬ HasTag content)
    (hnamed : ∀ span ∈ spans, span.isNamed = true) : scan (join spans) = spans := by
  induction spans with
  | nil => simp [scan]
  | cons span later ih =>
    rw [List.mem_cons, not_or] at hfilled
    obtain ⟨hspan, hlater⟩ := List.forall_mem_cons.mp hnamed
    obtain ⟨hnext, hapartLater⟩ := List.isChain_cons.mp hapart
    have hscan := ih hfilled.2 hapartLater
      (fun content hcontent => hliteral content (List.mem_cons_of_mem _ hcontent)) hlater
    rw [join_cons]
    cases span with
    | text content =>
      have hne : content ≠ [] := fun hnil => hfilled.1 (by rw [hnil])
      have hhead : ∀ next ∈ later.head?, next.isText = false := by
        intro next hmem
        exact (hnext next hmem).resolve_left (by simp [Span.isText])
      rw [Span.print, scan_append_of_literal (hliteral content (List.mem_cons_self ..))
        (head?_join hlater hhead), hscan]
      exact foldr_consChar hne hhead
    | opening name => rw [scan_of_readTag? (readTag?_print rfl hspan _), hscan]
    | closing name => rw [scan_of_readTag? (readTag?_print rfl hspan _), hscan]

/-- A text in tags is read as its spans in these tags, whatever stray brackets it holds. -/
theorem parse_tagged {text name : Text} {spans : List Span} (h : parse text = .ok spans)
    (hname : isTagName name = true) :
    parse (Span.print (.opening name) ++ text ++ Span.print (.closing name)) =
      .ok (.opening name :: spans ++ [.closing name]) := by
  obtain ⟨rfl, hrun⟩ := parse_eq_ok_iff.mp h
  obtain ⟨hjoin, hnamed, hfilled⟩ := scan_spec text
  obtain ⟨hapart, hliteral⟩ := scan_apart_literal text
  have hwritten : join (.opening name :: scan text ++ [.closing name]) =
      Span.print (.opening name) ++ text ++ Span.print (.closing name) := by
    simp [hjoin]
  have hfound : scan (join (.opening name :: scan text ++ [.closing name])) =
      .opening name :: scan text ++ [.closing name] := by
    apply scan_join_of_literal
    · simpa using hfilled
    · refine List.IsChain.cons ?_ fun _ _ => Or.inl rfl
      refine List.isChain_append.mpr ⟨hapart, List.isChain_singleton _, fun _ _ next hnext => ?_⟩
      obtain rfl : Span.closing name = next := by simpa using hnext
      exact Or.inr rfl
    · intro content hcontent
      exact hliteral content (by simpa using hcontent)
    · refine List.forall_mem_append.mpr ⟨List.forall_mem_cons.mpr ⟨hname, hnamed⟩, ?_⟩
      intro span hspan
      obtain rfl := List.mem_singleton.mp hspan
      exact hname
  rw [← hwritten, parse_eq_ok_iff, hfound]
  have hframe := openAfter_frame [name] hrun
  rw [List.nil_append] at hframe
  exact ⟨rfl, by simp [openAfter, openAfter_append, hframe]⟩

/-! ### Canonical lists -/

/-- The span lists that reading gives: texts hold something but no tag and have no text beside them,
and tags have the name of a tag and are well nested. -/
structure Canonical (spans : List Span) : Prop where
  filled : Span.text [] ∉ spans
  apart : Apart spans
  literal : ∀ content, Span.text content ∈ spans → ¬ HasTag content
  named : ∀ span ∈ spans, span.isNamed = true
  nested : WellNested spans

/-- Reading gives exactly the canonical lists, each for its written form and no other text. -/
theorem parse_eq_ok_iff_canonical {text : Text} {spans : List Span} :
    parse text = .ok spans ↔ Canonical spans ∧ join spans = text := by
  rw [parse_eq_ok_iff]
  constructor
  · rintro ⟨rfl, hrun⟩
    obtain ⟨hjoin, hnamed, hfilled⟩ := scan_spec text
    obtain ⟨hapart, hliteral⟩ := scan_apart_literal text
    exact ⟨⟨hfilled, hapart, hliteral, hnamed, wellNested_iff.mpr hrun⟩, hjoin⟩
  · rintro ⟨hcanonical, rfl⟩
    have hscan := scan_join_of_literal hcanonical.filled hcanonical.apart hcanonical.literal
      hcanonical.named
    rw [hscan]
    exact ⟨rfl, wellNested_iff.mp hcanonical.nested⟩

end TextGrid.Markup
