import TextGrid.Proofs.Words

/-!
# Packing words onto lines

Breaking a long word and packing words onto lines look at the text of the words and not at their
tags: words with the same text give lines with the same text. No tag is lost, and tags keep their
order.
-/

namespace TextGrid.Markup

/-- Spans that can be cut between any two code points: their text is ordinary and holds no bracket,
and no text span is empty. -/
structure Drawable (spans : List Span) : Prop where
  ordinary : Text.IsOrdinary (plainText spans)
  bare : '[' ∉ plainText spans
  filled : Span.text [] ∉ spans

/-- No spans can be cut anywhere. -/
theorem drawable_nil : Drawable [] :=
  ⟨Text.isOrdinary_nil, by simp, by simp⟩

/-- Two lists can be cut anywhere together if each of them can. -/
theorem drawable_append {left right : List Span} :
    Drawable (left ++ right) ↔ Drawable left ∧ Drawable right := by
  constructor
  · rintro ⟨hordinary, hbare, hfilled⟩
    rw [plainText_append] at hordinary hbare
    rw [Text.isOrdinary_append] at hordinary
    rw [List.mem_append, not_or] at hbare hfilled
    exact ⟨⟨hordinary.1, hbare.1, hfilled.1⟩, hordinary.2, hbare.2, hfilled.2⟩
  · rintro ⟨hleft, hright⟩
    refine ⟨?_, ?_, ?_⟩
    · rw [plainText_append, Text.isOrdinary_append]
      exact ⟨hleft.ordinary, hright.ordinary⟩
    · rw [plainText_append, List.mem_append, not_or]
      exact ⟨hleft.bare, hright.bare⟩
    · rw [List.mem_append, not_or]
      exact ⟨hleft.filled, hright.filled⟩

/-- Lines can be cut anywhere together if each of them can. -/
theorem drawable_flatten {lines : List (List Span)} :
    Drawable lines.flatten ↔ ∀ line ∈ lines, Drawable line := by
  induction lines with
  | nil => simp [drawable_nil]
  | cons line later ih => rw [List.flatten_cons, drawable_append, ih, List.forall_mem_cons]

/-- Spans that can be cut anywhere are as wide as their text. -/
theorem Drawable.width_eq {spans : List Span} (h : Drawable spans) :
    spansWidth spans = Text.cells (plainText spans) :=
  spansWidth_eq_cells h.ordinary.isCalm

/-- What is kept of drawable spans is drawable. -/
theorem Keeps.drawable {part whole : List Span} (h : Keeps part whole) (hwhole : Drawable whole) :
    Drawable part := by
  refine ⟨fun c hc => ?_, fun hmem => ?_, h.filled hwhole.filled⟩
  · rcases h.text c hc with rfl | hc
    · exact Text.isOrdinary_space
    · exact hwhole.ordinary c hc
  · rcases h.text '[' hmem with hspace | hmem
    · exact absurd hspace (by decide)
    · exact hwhole.bare hmem

/-- The head of a forced cut of drawable spans shows what fits, and the tail the rest. -/
theorem split_spec {spans : List Span} (h : Drawable spans) (width : Int) :
    let cut := split width true spans
    plainText cut.head = Text.fitting true width (plainText spans) ∧
      plainText cut.head ++ plainText cut.tail = plainText spans ∧
      Drawable (cut.head ++ cut.tail) := by
  intro cut
  obtain ⟨hhead, _⟩ := splitFrom_follows width true 0 h.ordinary
  have hroom : width - ((0 : Nat) : Int) = width := by omega
  rw [hroom] at hhead
  exact ⟨hhead, plainText_splitFrom width true 0 spans,
    (splitFrom_keeps width true 0 spans).drawable h⟩

/-! ### Breaking a word -/

/-- Spans with the same text break at the same places. -/
theorem breakWord_congr (room laterRoom : Nat) {spans spans' : List Span} (h : Drawable spans)
    (h' : Drawable spans') (hplain : plainText spans = plainText spans') :
    let broken := breakWord room laterRoom spans
    let broken' := breakWord room laterRoom spans'
    broken.lines.map plainText = broken'.lines.map plainText ∧
      plainText broken.rest = plainText broken'.rest ∧ broken.room = broken'.room := by
  induction room, spans using breakWord.induct laterRoom generalizing spans' with
  | case1 room spans hfits =>
    have hfits' : spansWidth spans' ≤ room := by rwa [h'.width_eq, ← hplain, ← h.width_eq]
    rw [breakWord, dif_pos hfits, breakWord, dif_pos hfits']
    exact ⟨rfl, hplain, rfl⟩
  | case2 room spans hfits parts =>
    rename_i ih
    have hfits' : ¬ spansWidth spans' ≤ room := by rwa [h'.width_eq, ← hplain, ← h.width_eq]
    obtain ⟨hhead, hwhole, hparts⟩ := split_spec h room
    obtain ⟨hhead', hwhole', hparts'⟩ := split_spec h' room
    have hheads : plainText (split room true spans).head =
        plainText (split room true spans').head := by
      rw [hhead, hhead', hplain]
    have htails : plainText (split room true spans).tail =
        plainText (split room true spans').tail := by
      rw [hheads, hplain, ← hwhole'] at hwhole
      exact List.append_cancel_left hwhole
    obtain ⟨hlines, hrest, hroom⟩ :=
      ih (drawable_append.mp hparts).2 (drawable_append.mp hparts').2 htails
    rw [breakWord, dif_neg hfits, breakWord, dif_neg hfits']
    refine ⟨?_, hrest, hroom⟩
    rw [List.map_cons, List.map_cons]
    exact congrArg₂ List.cons hheads hlines

/-- Text that is broken is on a line or in the rest. -/
theorem breakWord_ne_nil (room laterRoom : Nat) {spans : List Span} (h : plainText spans ≠ []) :
    plainText (breakWord room laterRoom spans).rest ≠ [] ∨
      (breakWord room laterRoom spans).lines ≠ [] := by
  rw [breakWord]
  split
  · exact Or.inl h
  · exact Or.inr (List.cons_ne_nil _ _)

/-! ### Packing words -/

namespace Packer

/-- Whether two packers have the same text at the same places. -/
structure Alike (packer packer' : Packer) : Prop where
  lines : packer.lines.map plainText = packer'.lines.map plainText
  current : plainText packer.current = plainText packer'.current
  used : packer.used = packer'.used
  room : packer.room = packer'.room

/-- Whether any line was started with text. -/
def Started (packer : Packer) : Prop :=
  plainText packer.current ≠ [] ∨ packer.lines ≠ []

/-- Words of one text start lines alike. -/
theorem startLine_congr {packer packer' : Packer} {word word' : List Span} (laterRoom : Nat)
    (h : packer.Alike packer') (hdrawable : Drawable (packer.current ++ word))
    (hdrawable' : Drawable (packer'.current ++ word')) (hword : plainText word = plainText word') :
    (packer.startLine laterRoom word).Alike (packer'.startLine laterRoom word') := by
  have hplain : plainText (packer.current ++ word) = plainText (packer'.current ++ word') := by
    rw [plainText_append, plainText_append, h.current, hword]
  obtain ⟨hlines, hrest, hroom⟩ :=
    breakWord_congr packer.room laterRoom hdrawable hdrawable' hplain
  have hbroken := (breakWord_keeps packer.room laterRoom _).drawable hdrawable
  have hbroken' := (breakWord_keeps packer.room laterRoom _).drawable hdrawable'
  have hwidth := (drawable_append.mp hbroken).2.width_eq
  have hwidth' := (drawable_append.mp hbroken').2.width_eq
  simp only [startLine, ← h.room]
  exact
    { lines := by simp [hlines, h.lines]
      current := hrest
      used := by rw [hwidth, hwidth', hrest]
      room := hroom }

/-- Words of one text are packed alike. -/
theorem addWord_congr {packer packer' : Packer} {word word' : List Span} (laterRoom : Nat)
    (h : packer.Alike packer') (hpacker : Drawable packer.spans)
    (hpacker' : Drawable packer'.spans) (hdrawable : Drawable word) (hdrawable' : Drawable word')
    (hword : plainText word = plainText word') :
    (packer.addWord laterRoom word).Alike (packer'.addWord laterRoom word') := by
  obtain ⟨_, hcurrent⟩ := drawable_append.mp hpacker
  obtain ⟨_, hcurrent'⟩ := drawable_append.mp hpacker'
  have htext : hasText packer.current = hasText packer'.current := by
    rw [Bool.eq_iff_iff, hasText_iff hcurrent.filled, hasText_iff hcurrent'.filled, h.current]
  have hwidth : spansWidth word = spansWidth word' := by
    rw [hdrawable.width_eq, hdrawable'.width_eq, hword]
  unfold addWord
  simp only [← htext, ← h.used, ← h.room, ← hwidth]
  split
  · split
    · exact
        { lines := h.lines
          current := by simp [h.current, hword]
          used := rfl
          room := rfl }
    · refine startLine_congr laterRoom ?_ (by simpa using hdrawable) (by simpa using hdrawable')
        hword
      exact
        { lines := by simp [h.lines, h.current]
          current := rfl
          used := rfl
          room := rfl }
  · exact startLine_congr laterRoom h (drawable_append.mpr ⟨hcurrent, hdrawable⟩)
      (drawable_append.mpr ⟨hcurrent', hdrawable'⟩) hword

/-- A word that is not empty starts a line with text. -/
theorem started_startLine (packer : Packer) (laterRoom : Nat) {word : List Span}
    (hword : plainText word ≠ []) : (packer.startLine laterRoom word).Started := by
  have htext : plainText (packer.current ++ word) ≠ [] := by simp [hword]
  rcases breakWord_ne_nil packer.room laterRoom htext with hrest | hlines
  · exact Or.inl hrest
  · exact Or.inr (by simp [startLine, hlines])

/-- Once a word that is not empty is packed, a line was started with text. -/
theorem started_addWord (packer : Packer) (laterRoom : Nat) {word : List Span}
    (hword : plainText word ≠ []) : (packer.addWord laterRoom word).Started := by
  unfold addWord
  split
  · dsimp only
    split
    · exact Or.inl (by simp [hword])
    · exact started_startLine _ laterRoom hword
  · exact started_startLine _ laterRoom hword

/-- Once a line was started, tags alone make no further line. -/
theorem map_finish {packer : Packer} (hstarted : packer.Started) (h : Drawable packer.spans) :
    packer.finish.map plainText =
      (packer.lines.map plainText).reverse ++
        if plainText packer.current = [] then [] else [plainText packer.current] := by
  have htext := hasText_iff (drawable_append.mp h).2.filled
  obtain ⟨lines, current, used, room⟩ := packer
  by_cases hempty : plainText current = []
  · have hnone : hasText current = false := by simpa [hempty] using htext
    have hlines : lines ≠ [] := by simpa [Started, hempty] using hstarted
    obtain ⟨last, before, rfl⟩ := List.exists_cons_of_ne_nil hlines
    unfold finish
    by_cases hcurrent : current.isEmpty = true
    · simp [hcurrent, hempty]
    · simp [hcurrent, hnone, hempty]
  · have hsome : hasText current = true := htext.mpr hempty
    have hcurrent : current ≠ [] := by
      rintro rfl
      exact hempty rfl
    cases lines <;> simp [finish, hcurrent, hsome, hempty]

/-! ### Runs over words -/

/-- Lists of words of one text are packed alike. -/
theorem foldl_addWord_congr {packer packer' : Packer} {words words' : List (List Span)}
    (laterRoom : Nat) (h : packer.Alike packer') (hpacker : Drawable packer.spans)
    (hpacker' : Drawable packer'.spans) (hwords : Drawable words.flatten)
    (hwords' : Drawable words'.flatten) (hplain : words.map plainText = words'.map plainText) :
    (words.foldl (addWord laterRoom) packer).Alike (words'.foldl (addWord laterRoom) packer') := by
  induction words generalizing packer packer' words' with
  | nil =>
    obtain rfl : words' = [] := by simpa using hplain.symm
    exact h
  | cons word later ih =>
    cases words' with
    | nil => simp at hplain
    | cons word' later' =>
      obtain ⟨hword, hlater⟩ := drawable_append.mp hwords
      obtain ⟨hword', hlater'⟩ := drawable_append.mp hwords'
      obtain ⟨hfirst, hrest⟩ := List.cons.inj hplain
      rw [List.foldl_cons, List.foldl_cons]
      exact ih (addWord_congr laterRoom h hpacker hpacker' hword hword' hfirst)
        ((addWord_keeps packer laterRoom word).drawable (drawable_append.mpr ⟨hpacker, hword⟩))
        ((addWord_keeps packer' laterRoom word').drawable (drawable_append.mpr ⟨hpacker', hword'⟩))
        hlater hlater' hrest

/-- Once words that are not empty are packed, a line was started with text. -/
theorem started_foldl_addWord {packer : Packer} {words : List (List Span)} (laterRoom : Nat)
    (hne : words ≠ []) (hwords : ∀ word ∈ words, plainText word ≠ []) :
    (words.foldl (addWord laterRoom) packer).Started := by
  induction words generalizing packer with
  | nil => exact absurd rfl hne
  | cons word later ih =>
    obtain ⟨hword, hlater⟩ := List.forall_mem_cons.mp hwords
    rw [List.foldl_cons]
    cases later with
    | nil => exact started_addWord packer laterRoom hword
    | cons next others => exact ih (List.cons_ne_nil _ _) hlater

end Packer

/-- Words with the same text are packed onto lines with the same text. -/
theorem pack_congr (room laterRoom : Nat) {words words' : List (List Span)}
    (h : Drawable words.flatten) (h' : Drawable words'.flatten)
    (hwords : ∀ word ∈ words, plainText word ≠ [])
    (hplain : words.map plainText = words'.map plainText) :
    (pack room laterRoom words).map plainText = (pack room laterRoom words').map plainText := by
  by_cases hempty : words = []
  · obtain rfl : words' = [] := by simpa [hempty] using hplain.symm
    rw [hempty]
  · have hempty' : words' ≠ [] := by
      rintro rfl
      exact hempty (by simpa using hplain)
    have hwords' : ∀ word ∈ words', plainText word ≠ [] := by
      intro word hword
      have hmem := List.mem_map_of_mem (f := plainText) hword
      rw [← hplain] at hmem
      obtain ⟨other, hother, hsame⟩ := List.mem_map.mp hmem
      rw [← hsame]
      exact hwords other hother
    have hstart : Drawable (Packer.mk [] [] 0 room).spans := drawable_nil
    have hsame : (Packer.mk [] [] 0 room).Alike ⟨[], [], 0, room⟩ := ⟨rfl, rfl, rfl, rfl⟩
    have halike := Packer.foldl_addWord_congr laterRoom hsame hstart hstart h h' hplain
    have hpacked := (Packer.foldl_addWord_keeps ⟨[], [], 0, room⟩ laterRoom words).drawable h
    have hpacked' := (Packer.foldl_addWord_keeps ⟨[], [], 0, room⟩ laterRoom words').drawable h'
    rw [pack, pack,
      Packer.map_finish (Packer.started_foldl_addWord laterRoom hempty hwords) hpacked,
      Packer.map_finish (Packer.started_foldl_addWord laterRoom hempty' hwords') hpacked',
      halike.lines, halike.current]

end TextGrid.Markup
