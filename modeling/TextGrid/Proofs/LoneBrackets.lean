import Mathlib.Data.List.Forall2
import TextGrid.Proofs.Reading

/-!
# Markup that lacks a bracket

Texts that lack one kind of bracket outside of their tags may be joined, styled and cut up span by
span: what is made of their spans is read back (`Legible.showsWithout`). With brackets of both kinds
a tag may arise that no part holds.
-/

namespace TextGrid.Markup

/-- Whether a text is well-nested markup that shows `plain`, with no bracket of one kind outside of
its tags. -/
def ShowsWithout (bracket : Char) (text plain : Text) : Prop :=
  strip text = .ok plain ∧ bracket ∉ plain

instance (bracket : Char) (text plain : Text) : Decidable (ShowsWithout bracket text plain) :=
  inferInstanceAs (Decidable (strip text = .ok plain ∧ bracket ∉ plain))

/-- A span list that is read back from its written form, up to text spans that touch: every tag has
the name of a tag, the texts lack a bracket, and tags are well nested. -/
structure Legible (bracket : Char) (spans : List Span) : Prop where
  named : ∀ span ∈ spans, span.isNamed = true
  lacks : bracket ∉ plainText spans
  nested : openAfter [] spans = some []

variable {bracket : Char}

/-- Legible spans stay legible with others behind them. -/
theorem Legible.append {left right : List Span} (hleft : Legible bracket left)
    (hright : Legible bracket right) : Legible bracket (left ++ right) where
  named := List.forall_mem_append.mpr ⟨hleft.named, hright.named⟩
  lacks := by simpa using ⟨hleft.lacks, hright.lacks⟩
  nested := by rw [openAfter_append, hleft.nested, Option.bind_some, hright.nested]

/-- A slice of well-nested spans is legible once it is rebalanced. -/
theorem legible_rebalance {spans : List Span} {before after : List Text}
    (hnamed : ∀ span ∈ spans, span.isNamed = true) (hlacks : bracket ∉ plainText spans)
    (hrun : openAfter before spans = some after) : Legible bracket (rebalance spans) where
  named := isNamed_of_mem_rebalance hnamed
  lacks := by simpa using hlacks
  nested := openAfter_rebalance hrun

/-- A text that shows something is left with it when it is stripped of its tags. -/
theorem ShowsWithout.strip_eq {text plain : Text} (h : ShowsWithout bracket text plain) :
    strip text = .ok plain :=
  h.1

/-- What is shown lacks the bracket. -/
theorem ShowsWithout.lacks {text plain : Text} (h : ShowsWithout bracket text plain) :
    bracket ∉ plain :=
  h.2

/-- A text that shows something is read as spans with that text, none of them empty. -/
theorem ShowsWithout.exists_parse {text plain : Text} (h : ShowsWithout bracket text plain) :
    ∃ spans, parse text = .ok spans ∧ Legible bracket spans ∧ Span.text [] ∉ spans ∧
      plainText spans = plain := by
  obtain ⟨hstrip, hlacks⟩ := h
  cases hparse : parse text with
  | error fault => simp [strip, hparse] at hstrip
  | ok spans =>
    obtain rfl : plainText spans = plain := by simpa [strip, hparse] using hstrip
    obtain ⟨rfl, hnested⟩ := parse_eq_ok_iff.mp hparse
    obtain ⟨_, hnamed, hfilled⟩ := scan_spec text
    exact ⟨scan text, rfl, ⟨hnamed, hlacks, hnested⟩, hfilled, rfl⟩

section Joined

variable (hbracket : IsBracket bracket)

include hbracket

/-- The written form of legible spans shows their text. -/
theorem Legible.showsWithout {spans : List Span} (h : Legible bracket spans) :
    ShowsWithout bracket (join spans) (plainText spans) := by
  obtain ⟨hnest, hplain⟩ := scan_join hbracket h.named h.lacks
  have hparse : parse (join spans) = .ok (scan (join spans)) :=
    parse_eq_ok_iff.mpr ⟨rfl, (hnest []).trans h.nested⟩
  exact ⟨by simp [strip, hparse, hplain], h.lacks⟩

/-- The texts that show something are the written forms of legible spans. -/
theorem showsWithout_iff {text plain : Text} :
    ShowsWithout bracket text plain ↔
      ∃ spans, Legible bracket spans ∧ join spans = text ∧ plainText spans = plain := by
  constructor
  · intro h
    obtain ⟨spans, hparse, hlegible, _, hplain⟩ := h.exists_parse
    obtain ⟨rfl, _⟩ := parse_eq_ok_iff.mp hparse
    exact ⟨scan text, hlegible, (scan_spec text).1, hplain⟩
  · rintro ⟨spans, hlegible, rfl, rfl⟩
    exact hlegible.showsWithout hbracket

namespace ShowsWithout

omit hbracket in
/-- A text without opening brackets shows itself. -/
theorem of_bare {text : Text} (h : '[' ∉ text) (hlacks : bracket ∉ text) :
    ShowsWithout bracket text text := by
  have hlegible : Legible '[' [.text text] :=
    ⟨by simp [Span.isNamed], by simpa [Span.content] using h, rfl⟩
  have hshows := hlegible.showsWithout (Or.inl rfl)
  exact ⟨by simpa [Span.print, Span.content] using hshows.1, hlacks⟩

omit hbracket in
/-- What a text shows without opening brackets shows itself. -/
theorem plain_self {text plain : Text} (h : ShowsWithout '[' text plain) :
    ShowsWithout '[' plain plain :=
  of_bare h.lacks h.lacks

omit hbracket in
/-- The empty text shows nothing. -/
theorem nil : ShowsWithout bracket [] [] :=
  of_bare (by simp) (by simp)

/-- Spaces show themselves. -/
theorem spaces (count : Int) :
    ShowsWithout bracket (Text.spaces count) (Text.spaces count) := by
  refine of_bare (by simp [Text.spaces]) ?_
  intro hmem
  exact hbracket.ne_space (List.eq_of_mem_replicate hmem)

/-- Texts one behind the other show what they show one by one. -/
theorem append {left right leftPlain rightPlain : Text}
    (hleft : ShowsWithout bracket left leftPlain)
    (hright : ShowsWithout bracket right rightPlain) :
    ShowsWithout bracket (left ++ right) (leftPlain ++ rightPlain) := by
  obtain ⟨spans, hspans, rfl, rfl⟩ := (showsWithout_iff hbracket).mp hleft
  obtain ⟨later, hlater, rfl, rfl⟩ := (showsWithout_iff hbracket).mp hright
  simpa using (hspans.append hlater).showsWithout hbracket

/-- Tags around a text do not change what it shows. -/
theorem style {text plain name : Text} (h : ShowsWithout bracket text plain)
    (hname : isTagName name = true) : ShowsWithout bracket (style text name) plain := by
  by_cases hempty : text.isEmpty = true
  · rwa [Markup.style, if_pos hempty]
  · obtain ⟨spans, hspans, rfl, rfl⟩ := (showsWithout_iff hbracket).mp h
    have hframe := openAfter_frame [name] hspans.nested
    have hlegible : Legible bracket (.opening name :: spans ++ [.closing name]) :=
      { named := by
          intro span hspan
          simp only [List.cons_append, List.mem_cons, List.mem_append, List.not_mem_nil,
            or_false] at hspan
          rcases hspan with rfl | hspan | rfl
          · exact hname
          · exact hspans.named span hspan
          · exact hname
        lacks := by simpa [Span.content] using hspans.lacks
        nested := by
          simp only [List.nil_append] at hframe
          simp [openAfter, openAfter_append, hframe] }
    rw [Markup.style, if_neg hempty]
    simpa [Span.content, List.append_assoc] using hlegible.showsWithout hbracket

/-- A slice of well-nested markup shows its text once it is rebalanced. -/
theorem rebalance {spans : List Span} {before after : List Text}
    (hnamed : ∀ span ∈ spans, span.isNamed = true) (hlacks : bracket ∉ plainText spans)
    (hrun : openAfter before spans = some after) :
    ShowsWithout bracket (join (rebalance spans)) (plainText spans) := by
  simpa using (legible_rebalance hnamed hlacks hrun).showsWithout hbracket

/-- Texts with a separator between neighbours show what they show one by one. -/
theorem joined {separator plain : Text} {parts plains : List Text}
    (hseparator : ShowsWithout bracket separator plain)
    (hparts : List.Forall₂ (ShowsWithout bracket) parts plains) :
    ShowsWithout bracket (Text.joined separator parts) (Text.joined plain plains) := by
  induction hparts with
  | nil => exact nil
  | cons hfirst hlater ih =>
    cases hlater with
    | nil => simpa [Text.joined] using hfirst
    | cons hnext hothers =>
      simpa [Text.joined, List.intercalate, List.intersperse] using
        append hbracket hfirst (append hbracket hseparator ih)

end ShowsWithout

end Joined

end TextGrid.Markup
