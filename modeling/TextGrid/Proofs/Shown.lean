import TextGrid.Markup.Slice
import TextGrid.Proofs.LoneBrackets
import TextGrid.Proofs.Ordinary

/-!
# Shown text

A marked-up text shows the text between its tags. Markup whose texts hold no opening bracket is read
back from its written form, so it may be joined, styled and cut up span by span. Such a text is as
wide as what it shows (`ShowsWithout.displayWidth`).
-/

namespace TextGrid.Markup

/-! ### Width -/

/-- Spans of calm text are as wide as its code points. -/
theorem spansWidth_eq_cells {spans : List Span}
    (h : ∀ c ∈ plainText spans, Cluster.isCalm c = true) :
    spansWidth spans = Text.cells (plainText spans) := by
  induction spans with
  | nil => rfl
  | cons span later ih =>
    rw [plainText_cons, List.forall_mem_append] at h
    have hlater := ih h.2
    simp only [spansWidth] at hlater
    simp [spansWidth, Text.width_eq_cells h.1, hlater]

/-- A text is as wide as the spans that it is read as. -/
theorem displayWidth_of_parse {text : Text} {spans : List Span} (h : parse text = .ok spans) :
    displayWidth text = .ok (spansWidth spans) := by
  by_cases hbracket : text.contains '[' = true
  · rw [Markup.displayWidth, if_pos hbracket, h]
    rfl
  · have hwidth : spansWidth spans = Text.width text := by
      rw [parse, if_neg hbracket] at h
      split at h
      · next hempty =>
        obtain rfl := Except.ok.inj h
        rw [List.isEmpty_iff.mp hempty]
        rfl
      · obtain rfl := Except.ok.inj h
        simp only [spansWidth, List.map_cons, List.map_nil, Span.content, sumNat_cons, sumNat_nil,
          Nat.add_zero]
    rw [Markup.displayWidth, if_neg hbracket, hwidth]
    rfl

/-- Markup takes no cells. -/
theorem ShowsWithout.displayWidth {bracket : Char} {text plain : Text}
    (h : ShowsWithout bracket text plain) (hcalm : ∀ c ∈ plain, Cluster.isCalm c = true) :
    displayWidth text = .ok (Text.cells plain) := by
  obtain ⟨spans, hparse, _, _, rfl⟩ := h.exists_parse
  rw [displayWidth_of_parse hparse, spansWidth_eq_cells hcalm]

/-! ### Ordinary text -/

/-- Whether a text is well-nested markup that shows the ordinary text `plain`. -/
structure Draws (text plain : Text) : Prop where
  shows : ShowsWithout '[' text plain
  ordinary : plain.IsOrdinary

instance (text plain : Text) : Decidable (Draws text plain) :=
  decidable_of_iff (ShowsWithout '[' text plain ∧ plain.IsOrdinary)
    ⟨fun h => ⟨h.1, h.2⟩, fun h => ⟨h.shows, h.ordinary⟩⟩

namespace Draws

/-- A text takes the cells of the ordinary text that it draws. -/
theorem displayWidth {text plain : Text} (h : Draws text plain) :
    displayWidth text = .ok (Text.cells plain) :=
  h.shows.displayWidth h.ordinary.isCalm

/-- The empty text draws itself. -/
theorem nil : Draws [] [] :=
  ⟨.nil, Text.isOrdinary_nil⟩

/-- Spaces draw themselves. -/
theorem spaces (count : Int) : Draws (Text.spaces count) (Text.spaces count) :=
  ⟨.spaces (Or.inl rfl) count, Text.isOrdinary_spaces count⟩

/-- Texts one behind the other draw what they draw one by one. -/
theorem append {left right leftPlain rightPlain : Text} (hleft : Draws left leftPlain)
    (hright : Draws right rightPlain) : Draws (left ++ right) (leftPlain ++ rightPlain) :=
  ⟨.append (Or.inl rfl) hleft.shows hright.shows,
    Text.isOrdinary_append.mpr ⟨hleft.ordinary, hright.ordinary⟩⟩

/-- Tags around a text do not change what it draws. -/
theorem style {text plain name : Text} (h : Draws text plain) (hname : isTagName name = true) :
    Draws (Markup.style text name) plain :=
  ⟨.style (Or.inl rfl) h.shows hname, h.ordinary⟩

/-- A repeated text draws what it draws as often. -/
theorem repeated {text plain : Text} (h : Draws text plain) (count : Int) :
    Draws (Text.repeated text count) (Text.repeated plain count) := by
  unfold Text.repeated
  induction count.toNat with
  | zero => exact nil
  | succ count ih => simpa [List.replicate_succ] using h.append ih

/-- Texts with a separator between neighbours draw what they draw one by one. -/
theorem joined {separator plain : Text} {parts plains : List Text}
    (hseparator : Draws separator plain) (hparts : List.Forall₂ Draws parts plains) :
    Draws (Text.joined separator parts) (Text.joined plain plains) := by
  induction hparts with
  | nil => exact nil
  | cons hfirst hlater ih =>
    cases hlater with
    | nil => simpa [Text.joined] using hfirst
    | cons hnext hothers =>
      simpa [Text.joined, List.intercalate, List.intersperse] using
        hfirst.append (hseparator.append ih)

end Draws

end TextGrid.Markup
