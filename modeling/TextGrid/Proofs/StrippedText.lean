import TextGrid.Proofs.FaultyMarkup

/-!
# Stripped text

Stripping puts the texts around each tag side by side. No text holds a tag, so a tag in the stripped
text begins in one of them and ends in a later one. Where no tag does, stripping once more changes
nothing; where one does, it fails or takes that tag for markup (`strip_strip_iff`).
-/

namespace TextGrid.Markup

/-! ### Texts without tags -/

/-- Spans are not written shorter than their text. -/
theorem length_plainText_le_join (spans : List Span) :
    (plainText spans).length ≤ (join spans).length := by
  induction spans with
  | nil => simp
  | cons span later ih =>
    have hcontent : span.content.length ≤ span.print.length := by
      cases span <;> simp [Span.content, Span.print]
    simp only [plainText_cons, join_cons, List.length_append]
    omega

/-- A list whose written form is no longer than its text has no tags. -/
theorem isText_of_length_join_le {spans : List Span}
    (h : (join spans).length ≤ (plainText spans).length) :
    ∀ span ∈ spans, span.isText = true := by
  induction spans with
  | nil => simp
  | cons span later ih =>
    simp only [plainText_cons, join_cons, List.length_append] at h
    have hlater := length_plainText_le_join later
    cases htag : span.isText with
    | true =>
      have hcontent : span.print = span.content := by
        cases span with
        | text content => rfl
        | opening name | closing name => cases htag
      rw [hcontent] at h
      exact List.forall_mem_cons.mpr ⟨htag, ih (by omega)⟩
    | false =>
      have hpos := length_print_pos htag
      rw [Span.content_of_tag htag, List.length_nil] at h
      omega

/-- Texts without tags of which no two are neighbours make up a text without tags: there is one at
most. -/
theorem not_hasTag_join {spans : List Span} (hapart : Apart spans)
    (hliteral : ∀ content, Span.text content ∈ spans → ¬ HasTag content)
    (htexts : ∀ span ∈ spans, span.isText = true) : ¬ HasTag (join spans) := by
  cases spans with
  | nil => exact not_hasTag_nil
  | cons span later =>
    have hspan := htexts span (List.mem_cons_self ..)
    cases later with
    | nil =>
      cases span with
      | text content => simpa [Span.print] using hliteral content
      | opening name | closing name => cases hspan
    | cons next others =>
      have hnext := htexts next (List.mem_cons_of_mem _ (List.mem_cons_self ..))
      rcases (List.isChain_cons_cons.mp hapart).1 with htag | htag
      · rw [htag] at hspan
        cases hspan
      · rw [htag] at hnext
        cases hnext

/-- Stripping leaves exactly the texts without tags as they are. -/
theorem strip_eq_self_iff {text : Text} : strip text = .ok text ↔ ¬ HasTag text := by
  constructor
  · intro hstrip
    cases hparse : parse text with
    | error fault => simp [strip, hparse] at hstrip
    | ok spans =>
      obtain ⟨rfl, _⟩ := parse_eq_ok_iff.mp hparse
      have hplain : plainText (scan text) = text := by simpa [strip, hparse] using hstrip
      obtain ⟨hjoin, _, _⟩ := scan_spec text
      obtain ⟨hapart, hliteral⟩ := scan_apart_literal text
      have htexts : ∀ span ∈ scan text, span.isText = true :=
        isText_of_length_join_le (by rw [hplain, hjoin])
      rw [← hjoin]
      exact not_hasTag_join hapart hliteral htexts
  · intro htag
    have hscan := scan_of_literal htag
    have hnested : openAfter [] (scan text) = some [] := by rw [hscan, openAfter_textSpans]
    have hparse : parse text = .ok (scan text) := parse_eq_ok_iff.mpr ⟨rfl, hnested⟩
    simp [strip, hparse, hscan, plainText_textSpans]

/-! ### Tags across texts -/

/-- Whether a tag begins in one text of a span list and ends in a later one when the spans between
are left out. -/
def Straddles (spans : List Span) : Prop :=
  ∃ before content after, spans = before ++ .text content :: after ∧
    ∃ (tag : Span) (begun ended : Text), tag.isText = false ∧ tag.isNamed = true ∧
      tag.print = begun ++ ended ∧ begun ≠ [] ∧ ended ≠ [] ∧
      begun <:+ content ∧ ended <+: plainText after

/-- A tag across spans stays one with a span in front. -/
theorem Straddles.cons {spans : List Span} (span : Span) (h : Straddles spans) :
    Straddles (span :: spans) := by
  obtain ⟨before, content, after, rfl, hcross⟩ := h
  exact ⟨span :: before, content, after, rfl, hcross⟩

/-- A tag in the texts of a list, none of which holds one, begins in one of them and ends in
another. -/
theorem straddles_of_hasTag {spans : List Span}
    (hliteral : ∀ content, Span.text content ∈ spans → ¬ HasTag content)
    (h : HasTag (plainText spans)) : Straddles spans := by
  induction spans with
  | nil => exact absurd h not_hasTag_nil
  | cons span later ih =>
    have hlater := fun hmem => ih (fun content hcontent =>
      hliteral content (List.mem_cons_of_mem _ hcontent)) hmem
    obtain ⟨tag, htag, hnamed, hinfix⟩ := h
    rw [plainText_cons] at hinfix
    rcases List.infix_append_iff_ne_nil.mp hinfix with hhead | hrest | hcross
    · cases span with
      | text content =>
        have hhas : HasTag content := ⟨tag, htag, hnamed, hhead⟩
        exact absurd hhas (hliteral content (List.mem_cons_self ..))
      | opening name | closing name =>
        have hhas : HasTag [] := ⟨tag, htag, hnamed, hhead⟩
        exact absurd hhas not_hasTag_nil
    · exact (hlater ⟨tag, htag, hnamed, hrest⟩).cons span
    · obtain ⟨begun, ended, hbegun, hended, hprint, hsuffix, hprefix⟩ := hcross
      cases span with
      | text content =>
        exact ⟨[], content, later, rfl, tag, begun, ended, htag, hnamed, hprint, hbegun, hended,
          hsuffix, hprefix⟩
      | opening name | closing name => exact absurd (List.suffix_nil.mp hsuffix) hbegun

/-- A tag that begins in one text and ends in a later one stands in the texts taken together. -/
theorem Straddles.hasTag {spans : List Span} (h : Straddles spans) :
    HasTag (plainText spans) := by
  obtain ⟨before, content, after, rfl, tag, begun, ended, htag, hnamed, hprint, _, _, hsuffix,
    hprefix⟩ := h
  refine ⟨tag, htag, hnamed, ?_⟩
  have hinfix : tag.print <:+: content ++ plainText after :=
    List.infix_append_iff.mpr (Or.inr (Or.inr ⟨begun, ended, hprint, hsuffix, hprefix⟩))
  rw [plainText_append, plainText_cons]
  exact List.infix_append_of_infix_right hinfix

/-- A tag has brackets of both kinds. -/
theorem not_hasTag_of_lacks {bracket : Char} (hbracket : IsBracket bracket) {text : Text}
    (hlacks : bracket ∉ text) : ¬ HasTag text := by
  rintro ⟨tag, htag, hnamed, hinfix⟩
  obtain ⟨inside, hprint, _⟩ := exists_print_eq htag hnamed
  apply hlacks
  apply hinfix.subset
  rw [hprint]
  rcases hbracket with rfl | rfl <;> simp

/-- **Stripping twice.** Well-nested markup can be stripped, and what is left holds a tag exactly if
one begins in one of its texts and ends in a later one. If none does, stripping what is left gives
the same again; if one does, it does not. None does where the texts lack brackets of one kind. -/
theorem strip_strip_iff {text : Text} {spans : List Span} (h : parse text = .ok spans) :
    strip text = .ok (plainText spans) ∧
      (HasTag (plainText spans) ↔ Straddles spans) ∧
      ((strip text >>= strip) = strip text ↔ ¬ Straddles spans) ∧
      ∀ bracket, IsBracket bracket → bracket ∉ plainText spans → ¬ Straddles spans := by
  have hstrip : strip text = .ok (plainText spans) := by simp [strip, h]
  have hiff : HasTag (plainText spans) ↔ Straddles spans := by
    obtain ⟨rfl, _⟩ := parse_eq_ok_iff.mp h
    exact ⟨straddles_of_hasTag (scan_apart_literal text).2, Straddles.hasTag⟩
  refine ⟨hstrip, hiff, ?_, fun bracket hbracket hlacks => ?_⟩
  · rw [hstrip, ← hiff]
    exact strip_eq_self_iff
  · rw [← hiff]
    exact not_hasTag_of_lacks hbracket hlacks

/-- Brackets that meet around a number make up no tag. -/
theorem strip_strip_bracketedNumber :
    parse "[1[b]2[/b]]".toList =
        .ok [.text ['[', '1'], .opening ['b'], .text ['2'], .closing ['b'], .text [']']] ∧
      (strip "[1[b]2[/b]]".toList >>= strip) = strip "[1[b]2[/b]]".toList := by
  have hparse : parse "[1[b]2[/b]]".toList =
      .ok [.text ['[', '1'], .opening ['b'], .text ['2'], .closing ['b'], .text [']']] := by
    decide +kernel
  obtain ⟨_, hiff, htwice, _⟩ := strip_strip_iff hparse
  have hbare : strip "[12]".toList = .ok "[12]".toList := by decide +kernel
  refine ⟨hparse, htwice.mpr fun hcross => ?_⟩
  exact strip_eq_self_iff.mp hbare (hiff.mpr hcross)

/-- Literal brackets on either side of an empty pair of tags meet when the pair is left out, and
what is left is markup again. -/
theorem strip_joinsBrackets :
    strip "[a[b][/b]]x[/[b][/b]a]".toList = .ok "[a]x[/a]".toList ∧
      HasTag "[a]x[/a]".toList ∧ strip "[a]x[/a]".toList = .ok "x".toList ∧
      strip "[a[b][/b]]".toList = .ok "[a]".toList ∧
      strip "[a]".toList = .error ⟨.neverClosed, "[a]".toList, 0⟩ := by
  have hinfix : Span.print (.opening ['a']) <:+: "[a]x[/a]".toList := ⟨[], "x[/a]".toList, rfl⟩
  refine ⟨by decide +kernel, ⟨.opening ['a'], rfl, by decide, hinfix⟩, ?_⟩
  decide +kernel

end TextGrid.Markup
