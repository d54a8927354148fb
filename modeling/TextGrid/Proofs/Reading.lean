import TextGrid.Proofs.Nesting

/-!
# Reading markup

A tag is read back wherever it is written. A tag takes an opening and a closing bracket, so where
the texts of a list lack one of the two, no tag arises where texts touch, and the tags and the text
of the list are found again in its written form (`scan_join`).
-/

namespace TextGrid.Markup

/-! ### Reading one span -/

/-- A tag name is made of the code points of names. -/
theorem isNameChar_of_mem {name : Text} (hname : isTagName name = true) {c : Char} (hc : c ∈ name) :
    isNameChar c = true := by
  cases name with
  | nil => cases hc
  | cons first later =>
    simp only [isTagName, Bool.and_eq_true, List.all_eq_true] at hname
    rcases List.mem_cons.mp hc with rfl | hc
    · simp_all [isNameStart, isNameChar, Char.isAlphanum]
    · exact hname.2 c hc

/-- A tag name is read up to its bracket. -/
theorem readName?_append {name : Text} (hname : isTagName name = true) (rest : Text) :
    readName? (name ++ ']' :: rest) = some (name, rest) := by
  have hall : ∀ c ∈ name, isNameChar c = true := fun c hc => isNameChar_of_mem hname hc
  have hbracket : isNameChar ']' = false := by decide
  simp [readName?, List.takeWhile_append_of_pos hall, List.dropWhile_append_of_pos hall, hbracket,
    hname]

/-- A tag at the head of a text is read as it was written. -/
theorem readTag?_print {tag : Span} (htag : tag.isText = false) (hnamed : tag.isNamed = true)
    (rest : Text) : readTag? (tag.print ++ rest) = some (tag, rest) := by
  cases tag with
  | text content => simp [Span.isText] at htag
  | opening name =>
    have hread := readName?_append hnamed rest
    cases name with
    | nil => simp [Span.isNamed, isTagName] at hnamed
    | cons first later =>
      have hslash : first ≠ '/' := by
        rintro rfl
        have hstart : isNameStart '/' = false := by decide
        simp [Span.isNamed, isTagName, hstart] at hnamed
      simp only [Span.print, List.cons_append, List.append_assoc, List.nil_append] at hread ⊢
      rw [readTag?]
      · rw [hread]
        rfl
      · simp [hslash]
  | closing name =>
    have hread := readName?_append hnamed rest
    simp only [Span.print, List.cons_append, List.append_assoc, List.nil_append] at hread ⊢
    rw [readTag?, hread]
    rfl

/-- What is read as a tag is one, with the name of a tag. -/
theorem isNamed_of_readTag? {text rest : Text} {tag : Span} (h : readTag? text = some (tag, rest)) :
    tag.isNamed = true ∧ tag.isText = false := by
  unfold readTag? at h
  split at h
  · obtain ⟨⟨name, after⟩, hread, hpair⟩ := Option.map_eq_some_iff.mp h
    obtain ⟨rfl, rfl⟩ := Prod.mk.inj hpair
    exact ⟨(eq_append_of_readName? hread).2, rfl⟩
  · obtain ⟨⟨name, after⟩, hread, hpair⟩ := Option.map_eq_some_iff.mp h
    obtain ⟨rfl, rfl⟩ := Prod.mk.inj hpair
    exact ⟨(eq_append_of_readName? hread).2, rfl⟩
  · exact absurd h (by simp)

/-- A tag begins with a bracket. -/
theorem readTag?_of_ne {c : Char} (hc : c ≠ '[') (rest : Text) : readTag? (c :: rest) = none := by
  unfold readTag?
  split <;> simp_all

/-! ### Reading a list of spans -/

/-- A tag at the head of a text is the first span of its scan. -/
theorem scan_of_readTag? {text after : Text} {tag : Span} (h : readTag? text = some (tag, after)) :
    scan text = tag :: scan after := by
  cases text with
  | nil => simp [readTag?] at h
  | cons c rest =>
    rw [scan]
    split
    · next found later hfound =>
      obtain ⟨rfl, rfl⟩ := Prod.mk.inj (Option.some.inj (hfound.symm.trans h))
      rfl
    · next hnone => exact absurd (hnone.symm.trans h) (by simp)

/-- A code point that begins no tag is text. -/
theorem scan_of_readTag?_eq_none {c : Char} {rest : Text} (h : readTag? (c :: rest) = none) :
    scan (c :: rest) = consChar c (scan rest) := by
  rw [scan]
  split
  · next found later hfound => exact absurd (hfound.symm.trans h) (by simp)
  · rfl

/-- A code point in front does not change what a run leaves open. -/
theorem openAfter_consChar (stack : List Text) (c : Char) (spans : List Span) :
    openAfter stack (consChar c spans) = openAfter stack spans := by
  unfold consChar
  split <;> rfl

/-- A code point in front is the first one of the text. -/
theorem plainText_consChar (c : Char) (spans : List Span) :
    plainText (consChar c spans) = c :: plainText spans := by
  unfold consChar
  split <;> simp [Span.content]

/-- A code point in front is written first. -/
theorem join_consChar (c : Char) (spans : List Span) :
    join (consChar c spans) = c :: join spans := by
  unfold consChar
  split <;> simp [Span.print]

/-- Text in front does not change what a run leaves open. -/
theorem openAfter_foldr_consChar (stack : List Text) (content : Text) (spans : List Span) :
    openAfter stack (content.foldr consChar spans) = openAfter stack spans := by
  induction content with
  | nil => rfl
  | cons c later ih => rw [List.foldr_cons, openAfter_consChar, ih]

/-- Text in front comes first. -/
theorem plainText_foldr_consChar (content : Text) (spans : List Span) :
    plainText (content.foldr consChar spans) = content ++ plainText spans := by
  induction content with
  | nil => rfl
  | cons c later ih => rw [List.foldr_cons, plainText_consChar, ih, List.cons_append]

/-! ### Brackets -/

/-- Whether a code point is one of the two brackets of a tag. -/
def IsBracket (c : Char) : Prop :=
  c = '[' ∨ c = ']'

instance (c : Char) : Decidable (IsBracket c) :=
  inferInstanceAs (Decidable (c = '[' ∨ c = ']'))

/-- A bracket is no space. -/
theorem IsBracket.ne_space {c : Char} (h : IsBracket c) : c ≠ ' ' := by
  rcases h with rfl | rfl
  · decide
  · decide

/-- No bracket stands in a name. -/
theorem ne_bracket_of_isNameChar {c : Char} (h : isNameChar c = true) : c ≠ '[' := by
  rintro rfl
  have hbracket : isNameChar '[' = false := by decide
  rw [hbracket] at h
  cases h

/-- A written tag stands between brackets, with no opening bracket inside. -/
theorem exists_print_eq {tag : Span} (htag : tag.isText = false) (hnamed : tag.isNamed = true) :
    ∃ inside, tag.print = '[' :: inside ++ [']'] ∧ '[' ∉ inside := by
  have hname : ∀ name : Text, isTagName name = true → '[' ∉ name := fun name hname hmem =>
    ne_bracket_of_isNameChar (isNameChar_of_mem hname hmem) rfl
  cases tag with
  | text content => simp [Span.isText] at htag
  | opening name => exact ⟨name, rfl, hname name hnamed⟩
  | closing name =>
    refine ⟨'/' :: name, rfl, ?_⟩
    simpa using hname name hnamed

/-- Where texts lack closing brackets, a closing bracket stands behind an opening one. -/
theorem bracket_mem_of_join {spans : List Span} (hnamed : ∀ span ∈ spans, span.isNamed = true)
    (hlacks : ']' ∉ plainText spans) {before after : Text}
    (h : join spans = before ++ ']' :: after) : '[' ∈ before := by
  induction spans generalizing before with
  | nil => simp at h
  | cons span later ih =>
    obtain ⟨hspan, hlater⟩ := List.forall_mem_cons.mp hnamed
    rw [plainText_cons, List.mem_append, not_or] at hlacks
    rw [join_cons] at h
    cases htag : span.isText with
    | true =>
      cases span with
      | text content =>
        rcases List.append_eq_append_iff.mp h with ⟨rest, rfl, hrest⟩ | ⟨rest, hcontent, hrest⟩
        · exact List.mem_append_right _ (ih hlater hlacks.2 hrest)
        · cases rest with
          | nil =>
            have hjoin : join later = [] ++ ']' :: after := hrest.symm
            cases ih hlater hlacks.2 hjoin
          | cons c others =>
            obtain ⟨rfl, _⟩ := List.cons.inj hrest
            have hclosing : ']' ∉ content := hlacks.1
            have htext : content = before ++ ']' :: others := hcontent
            rw [htext] at hclosing
            simp at hclosing
      | opening name => cases htag
      | closing name => cases htag
    | false =>
      obtain ⟨inside, hprint, _⟩ := exists_print_eq htag hspan
      rw [hprint] at h
      cases before with
      | nil =>
        have hhead := (List.cons.inj h).1
        exact absurd hhead (by decide)
      | cons c rest =>
        obtain ⟨rfl, _⟩ := List.cons.inj h
        exact List.mem_cons_self ..

/-- No tag is read at a text that lacks a bracket, whatever spans of the kind follow. -/
theorem readTag?_text_append {bracket : Char} (hbracket : IsBracket bracket) {c : Char}
    {content : Text} {later : List Span} (hnamed : ∀ span ∈ later, span.isNamed = true)
    (hlacks : bracket ∉ c :: content ++ plainText later) :
    readTag? (c :: content ++ join later) = none := by
  rw [List.cons_append, List.mem_cons, not_or] at hlacks
  rcases hbracket with rfl | rfl
  · exact readTag?_of_ne (Ne.symm hlacks.1) _
  · cases hread : readTag? (c :: content ++ join later) with
    | none => rfl
    | some found =>
      obtain ⟨tag, after⟩ := found
      obtain ⟨hnamedTag, htag⟩ := isNamed_of_readTag? hread
      obtain ⟨inside, hprint, hinside⟩ := exists_print_eq htag hnamedTag
      have hwhole := eq_append_of_readTag? hread
      rw [hprint] at hwhole
      have htail : join (.text content :: later) = inside ++ ']' :: after := by
        simpa [Span.print] using (List.cons.inj hwhole).2
      have hmem := bracket_mem_of_join (List.forall_mem_cons.mpr ⟨rfl, hnamed⟩)
        (by simpa [Span.content] using hlacks.2) htail
      exact absurd hmem hinside

/-- Text before spans that lack a bracket is scanned code point by code point. -/
theorem scan_text_append {bracket : Char} (hbracket : IsBracket bracket) {content : Text}
    {later : List Span} (hnamed : ∀ span ∈ later, span.isNamed = true)
    (hlacks : bracket ∉ content ++ plainText later) :
    scan (content ++ join later) = content.foldr consChar (scan (join later)) := by
  induction content with
  | nil => rfl
  | cons c rest ih =>
    have hread := readTag?_text_append hbracket hnamed hlacks
    rw [List.cons_append, List.mem_cons, not_or] at hlacks
    rw [List.cons_append] at hread ⊢
    rw [scan_of_readTag?_eq_none hread, ih hlacks.2, List.foldr_cons]

/-- The tags and the text of a list whose texts lack a bracket are found again in its written
form. -/
theorem scan_join {bracket : Char} (hbracket : IsBracket bracket) {spans : List Span}
    (hnamed : ∀ span ∈ spans, span.isNamed = true) (hlacks : bracket ∉ plainText spans) :
    (∀ stack, openAfter stack (scan (join spans)) = openAfter stack spans) ∧
      plainText (scan (join spans)) = plainText spans := by
  induction spans with
  | nil => simp [scan]
  | cons span later ih =>
    obtain ⟨hspan, hlater⟩ := List.forall_mem_cons.mp hnamed
    rw [plainText_cons] at hlacks
    obtain ⟨hnest, hplain⟩ := ih hlater fun hmem => hlacks (List.mem_append_right _ hmem)
    rw [join_cons]
    cases span with
    | text content =>
      have hcontent : bracket ∉ content ++ plainText later := hlacks
      rw [Span.print, scan_text_append hbracket hlater hcontent]
      refine ⟨fun stack => ?_, ?_⟩
      · rw [openAfter_foldr_consChar, hnest, openAfter]
      · rw [plainText_foldr_consChar, hplain, plainText_cons, Span.content]
    | opening name =>
      rw [scan_of_readTag? (readTag?_print rfl hspan _)]
      exact ⟨fun stack => hnest _, by simp [hplain]⟩
    | closing name =>
      rw [scan_of_readTag? (readTag?_print rfl hspan _)]
      refine ⟨fun stack => ?_, by simp [hplain]⟩
      cases stack <;> simp [openAfter, hnest]

/-- What a scan finds: tags with names and texts that are not empty, in the written order. -/
theorem scan_spec (text : Text) :
    join (scan text) = text ∧ (∀ span ∈ scan text, span.isNamed = true) ∧
      Span.text [] ∉ scan text := by
  induction text using scan.induct with
  | case1 => simp [scan]
  | case2 c rest tag after hread ih =>
    rw [scan_of_readTag? hread, join_cons, eq_append_of_readTag? hread]
    obtain ⟨hnamed, htag⟩ := isNamed_of_readTag? hread
    refine ⟨by rw [ih.1], List.forall_mem_cons.mpr ⟨hnamed, ih.2.1⟩, ?_⟩
    rw [List.mem_cons, not_or]
    exact ⟨by rintro rfl; simp [Span.isText] at htag, ih.2.2⟩
  | case3 c rest hread ih =>
    rw [scan_of_readTag?_eq_none hread, join_consChar, ih.1]
    obtain ⟨_, hnamed, hfilled⟩ := ih
    refine ⟨rfl, ?_, ?_⟩
    · unfold consChar
      split <;> simp_all [Span.isNamed]
    · unfold consChar
      split <;> simp_all

/-! ### Reading a text -/

/-- Without a bracket the full scan finds the text alone. -/
theorem parse_eq_parseTags (text : Text) : parse text = parseTags text := by
  by_cases hbracket : '[' ∈ text
  · simp [parse, hbracket]
  · have hscan : scan text = text.foldr consChar [] := by
      simpa [scan] using scan_text_append (Or.inl rfl) (by simp)
        (by simpa using hbracket : '[' ∉ text ++ plainText [])
    cases text with
    | nil => simp [parse, parseTags, scan, checkNesting]
    | cons c rest =>
      have hfold : ∀ (first : Char) (later : Text),
          (first :: later).foldr consChar [] = [.text (first :: later)] := by
        intro first later
        induction later generalizing first with
        | nil => rfl
        | cons next others ih => rw [List.foldr_cons, ih]; rfl
      simp [parse, parseTags, hbracket, hscan, hfold, checkNesting]

/-- A text is read as its scan exactly if the tags of the scan are well nested. -/
theorem parse_eq_ok_iff {text : Text} {spans : List Span} :
    parse text = .ok spans ↔ spans = scan text ∧ openAfter [] (scan text) = some [] := by
  have hnesting := checkNesting_eq_ok_iff 0 [] (scan text)
  rw [List.map_nil] at hnesting
  rw [parse_eq_parseTags, parseTags, ← hnesting]
  cases hcheck : checkNesting 0 [] (scan text) with
  | error fault => simp
  | ok checked => simp [eq_comm]

end TextGrid.Markup
