import TextGrid.Proofs.Packing

/-!
# Wrapping shown text

Wrapping a marked-up text gives the lines that wrapping its plain text gives. The tags that are open
where a line ends are closed there and opened again on the next line, so every line is well nested.
-/

namespace TextGrid

namespace Text

/-- A plain text wrapped to a first line of `room` cells and later ones of `laterRoom`. There is one
empty line when there are no words. -/
def wrapped (room laterRoom : Nat) (text : Text) : List Text :=
  match words text with
  | [] => [[]]
  | first :: later =>
    (Markup.pack room laterRoom ((first :: later).map fun word => [.text word])).map
      Markup.plainText

/-- A text without words is wrapped to one empty line. -/
theorem wrapped_of_words_eq_nil {text : Text} (h : words text = []) (room laterRoom : Nat) :
    wrapped room laterRoom text = [[]] := by
  rw [wrapped, h]

/-- A text with words is wrapped by packing them. -/
theorem wrapped_of_words_ne_nil {text : Text} (h : words text ≠ []) (room laterRoom : Nat) :
    wrapped room laterRoom text =
      (Markup.pack room laterRoom ((words text).map fun word => [.text word])).map
        Markup.plainText := by
  obtain ⟨first, later, hwords⟩ := List.exists_cons_of_ne_nil h
  rw [wrapped, hwords]

/-- Whether a text can be wrapped: its code points are ordinary or blank. -/
def IsWrappable (text : Text) : Prop :=
  ∀ c ∈ text, Cluster.isOrdinary c = true ∨ isBlank c = true

instance (text : Text) : Decidable (IsWrappable text) :=
  List.decidableBAll (fun c => Cluster.isOrdinary c = true ∨ isBlank c = true) text

/-- Ordinary text can be wrapped. -/
theorem IsOrdinary.isWrappable {text : Text} (h : IsOrdinary text) : IsWrappable text :=
  fun c hc => Or.inl (h c hc)

/-- Text that can be wrapped is calm. -/
theorem IsWrappable.isCalm {text : Text} (h : IsWrappable text) : IsCalm text := fun c hc =>
  (h c hc).elim Cluster.isCalm_of_isOrdinary Cluster.isCalm_of_isBlank

/-- The words of a text that can be wrapped are ordinary. -/
theorem IsWrappable.of_mem_words {text word : Text} (h : IsWrappable text) (hbare : '[' ∉ text)
    (hword : word ∈ words text) : word ≠ [] ∧ IsOrdinary word ∧ '[' ∉ word := by
  have hproperty : ∀ c ∈ text, isBlank c = false → Cluster.isOrdinary c = true ∧ c ≠ '[' := by
    intro c hc hblank
    refine ⟨(h c hc).resolve_right (by simp [hblank]), ?_⟩
    rintro rfl
    exact hbare hc
  obtain ⟨hne, hall⟩ := Text.of_mem_words hproperty hword
  exact ⟨hne, fun c hc => (hall c hc).1, fun hmem => (hall _ hmem).2 rfl⟩

end Text

namespace Markup

/-! ### Lines that are well nested on their own -/

/-- Balanced lines of spans that run with the tags of legible ones show their text. -/
theorem Legible.balanceLines_draws {spans : List Span} {lines : List (List Span)}
    (h : Legible '[' spans) (htags : tags lines.flatten = tags spans)
    (hlines : Drawable lines.flatten) :
    List.Forall₂ Draws (balanceLines [] lines) (lines.map plainText) := by
  have hbalances := h.balanceLines_balances htags
  rw [drawable_flatten] at hlines
  rw [List.forall₂_map_right_iff]
  generalize balanceLines [] lines = texts at hbalances ⊢
  clear htags
  induction hbalances with
  | nil => exact .nil
  | cons hline _ ih =>
    obtain ⟨hfirst, hlater⟩ := List.forall_mem_cons.mp hlines
    have hshows := hline.showsWithout (Or.inl rfl) hfirst.bare
    exact .cons ⟨hshows, hfirst.ordinary⟩ (ih hlater)

/-! ### Wrapped spans -/

/-- The words of wrappable text can be cut anywhere. -/
theorem drawable_words {text : Text} (h : text.IsWrappable) (hbare : '[' ∉ text) :
    Drawable ((Text.words text).map fun word => [Span.text word]).flatten := by
  rw [drawable_flatten]
  intro line hline
  obtain ⟨word, hword, rfl⟩ := List.mem_map.mp hline
  obtain ⟨hne, hordinary, hbareWord⟩ := h.of_mem_words hbare hword
  exact ⟨by simpa [Span.content] using hordinary, by simpa [Span.content] using hbareWord,
    by simpa using hne⟩

/-- Words as spans have the words as their text. -/
theorem map_plainText_words (words : List Text) :
    (words.map fun word => [Span.text word]).map plainText = words := by
  induction words with
  | nil => rfl
  | cons word later ih =>
    rw [List.map_cons, List.map_cons, ih]
    simp [Span.content]

/-- The words of wrappable spans can be cut anywhere. -/
theorem drawable_flatten_words {spans : List Span} (h : Text.IsWrappable (plainText spans))
    (hbare : '[' ∉ plainText spans) : Drawable (words spans).flatten := by
  obtain ⟨_, hfilled, hwords⟩ := words_spec spans
  rcases hwords with hwords | ⟨_, word, hword, _, hplain⟩
  · have hdrawable := drawable_words h hbare
    have hsame : plainText (words spans).flatten =
        plainText ((Text.words (plainText spans)).map fun word => [Span.text word]).flatten := by
      rw [plainText_flatten, hwords, plainText_flatten, map_plainText_words]
    exact ⟨by rw [hsame]; exact hdrawable.ordinary, by rw [hsame]; exact hdrawable.bare, hfilled⟩
  · have hnone : plainText (words spans).flatten = [] := by simp [hword, hplain]
    exact ⟨by rw [hnone]; exact Text.isOrdinary_nil, by simp [hnone], hfilled⟩

/-- Tags without a word are packed onto a line of their own. -/
theorem pack_tags (room laterRoom : Nat) {word : List Span} (hne : word ≠ [])
    (h : Drawable word) (hplain : plainText word = []) : pack room laterRoom [word] = [word] := by
  have hfits : spansWidth word ≤ room := by
    rw [h.width_eq, hplain]
    exact Nat.zero_le _
  simp [pack, Packer.addWord, Packer.startLine, breakWord, hasText, hfits, Packer.finish, hne]

/-- Wrapping shows the plain text wrapped, with later lines indented. -/
theorem wrapSpans_draws {spans : List Span} (h : Legible '[' spans)
    (hwrappable : Text.IsWrappable (plainText spans)) {width indent : Int} (hwidth : 0 < width)
    (hindent : indent < width) :
    ∃ lines, wrapSpans spans width indent = indentRest (Text.spaces indent) lines ∧
      List.Forall₂ Draws lines
        (Text.wrapped width.toNat (width - indent).toNat (plainText spans)) := by
  have hdrawable := drawable_flatten_words hwrappable h.lacks
  obtain ⟨htags, _, hwords⟩ := words_spec spans
  cases hfound : words spans with
  | nil =>
    refine ⟨[[]], by simp [wrapSpans, hfound, indentRest], ?_⟩
    have hnone : Text.words (plainText spans) = [] := by
      rcases hwords with hwords | ⟨_, word, hword, _⟩
      · simpa [hfound] using hwords.symm
      · simp [hfound] at hword
    rw [Text.wrapped_of_words_eq_nil hnone]
    exact .cons Draws.nil .nil
  | cons first later =>
    rw [hfound] at htags hdrawable
    refine ⟨balanceLines [] (pack width.toNat (width - indent).toNat (first :: later)), ?_, ?_⟩
    · simp only [wrapSpans, hfound]
      rw [if_neg (by omega), if_neg (by omega)]
    · have hkeeps := pack_keeps width.toNat (width - indent).toNat (first :: later)
      have hdraws := h.balanceLines_draws (hkeeps.tags.trans htags) (hkeeps.drawable hdrawable)
      rcases hwords with hwords | ⟨hnone, word, hword, hne, hplain⟩
      · rw [hfound] at hwords
        have hne : Text.words (plainText spans) ≠ [] := by
          rw [← hwords]
          exact List.cons_ne_nil _ _
        have hsome : ∀ word ∈ first :: later, plainText word ≠ [] := by
          intro word hword
          have hmem : plainText word ∈ Text.words (plainText spans) := by
            rw [← hwords]
            exact List.mem_map_of_mem hword
          exact (hwrappable.of_mem_words h.lacks hmem).1
        rw [Text.wrapped_of_words_ne_nil hne, ← pack_congr _ _ hdrawable
          (drawable_words hwrappable h.lacks) hsome (by rw [hwords, map_plainText_words])]
        exact hdraws
      · obtain ⟨rfl, rfl⟩ := List.cons.inj (hfound.symm.trans hword)
        have htags : Drawable first := by simpa using hdrawable
        rw [pack_tags _ _ hne htags hplain, List.map_singleton, hplain] at hdraws
        rw [Text.wrapped_of_words_eq_nil hnone, pack_tags _ _ hne htags hplain]
        exact hdraws

end Markup

end TextGrid
