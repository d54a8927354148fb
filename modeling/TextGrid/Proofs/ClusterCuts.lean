import TextGrid.Markup.Slice
import TextGrid.Proofs.Ordinary

/-!
# Cuts between clusters

A text is cut only between two clusters. The clusters before a cut stay as they are. Those behind it
may join anew, but do so only where a mark stands before a control that it would belong to; texts in
which they stay are `Cluster.Separable`. A cut takes the clusters that fit and stops at the first
one that does not (`Markup.fit_spec`).
-/

namespace TextGrid

namespace Cluster

/-- There is always a current cluster. -/
theorem exists_segmentFrom (state : BreakState) (text : Text) :
    ∃ first later, segmentFrom state text = first :: later := by
  cases text with
  | nil => exact ⟨[], [], rfl⟩
  | cons c rest =>
    simp only [segmentFrom]
    split
    · exact ⟨_, _, rfl⟩
    · cases hrest : segmentFrom (state.step (BreakClass.ofChar c)).2 rest with
      | nil => exact ⟨_, _, rfl⟩
      | cons cluster others => exact ⟨_, _, rfl⟩

/-! ### Clusters before a cut -/

/-- The text of the first clusters has just these clusters. -/
theorem segmentFrom_flatten_left {state : BreakState} {text first : Text} {left right : List Text}
    (h : segmentFrom state text = first :: left ++ right) :
    segmentFrom state (first :: left).flatten = first :: left := by
  induction text generalizing state first left with
  | nil =>
    obtain ⟨rfl, hnil⟩ := List.cons.inj h
    obtain ⟨rfl, _⟩ := List.append_eq_nil_iff.mp hnil.symm
    rfl
  | cons c rest ih =>
    obtain ⟨head, others, hrest⟩ :=
      exists_segmentFrom (state.step (BreakClass.ofChar c)).2 rest
    simp only [segmentFrom, hrest, grow] at h
    split at h
    · next hstarts =>
      obtain ⟨rfl, hothers⟩ := List.cons.inj h
      cases left with
      | nil => rfl
      | cons cluster later =>
        obtain ⟨rfl, rfl⟩ := List.cons.inj hothers
        have hlater := ih hrest
        simp only [List.flatten_cons, List.nil_append, List.cons_append, segmentFrom, hstarts,
          if_true] at hlater ⊢
        rw [hlater, grow]
    · next hjoins =>
      obtain ⟨rfl, rfl⟩ := List.cons.inj h
      have hlater := ih hrest
      simp only [List.flatten_cons, List.cons_append, segmentFrom, hjoins] at hlater ⊢
      rw [hlater]
      rfl

/-- The clusters before a cut are the clusters of the text before it. -/
theorem segment_flatten_left {text : Text} {left right : List Text}
    (h : segment text = left ++ right) : segment left.flatten = left := by
  cases text with
  | nil =>
    obtain ⟨rfl, _⟩ := List.append_eq_nil_iff.mp h.symm
    rfl
  | cons c rest =>
    cases left with
    | nil => rfl
    | cons cluster later =>
      obtain ⟨head, others, hrest⟩ :=
        exists_segmentFrom (BreakState.enter (BreakClass.ofChar c)).2 rest
      simp only [segment, hrest, grow] at h
      obtain ⟨rfl, rfl⟩ := List.cons.inj h
      have hlater := segmentFrom_flatten_left hrest
      simp only [List.flatten_cons, List.cons_append, segment] at hlater ⊢
      rw [hlater, grow]

/-! ### Clusters behind a cut -/

/-- Whether the clusters behind any cut of a text are the clusters of the text behind it. -/
def Separable (text : Text) : Prop :=
  ∀ left right, segment text = left ++ right → segment right.flatten = right

end Cluster

namespace BreakState

/-- Where a cluster starts behind anything but a mark that belongs to what follows, the machine goes
on as at the start of a text. -/
theorem step_eq_enter {state : BreakState} {next : BreakClass} (hstate : state ≠ afterPrepend)
    (hstarts : (state.step next).1 = true) : (state.step next).2 = (enter next).2 := by
  cases state <;> cases next <;>
    first | rfl | exact absurd hstarts Bool.false_ne_true | exact absurd rfl hstate

/-- Only a prepending mark makes the next code point stay with it. -/
theorem step_ne_afterPrepend (state : BreakState) {next : BreakClass}
    (hnext : next ≠ .prependMark) : (state.step next).2 ≠ afterPrepend := by
  cases state <;> cases next <;> first | exact absurd rfl hnext | decide

end BreakState

namespace Cluster

/-- In a text without such marks each cluster starts as at the start of a text. -/
theorem segmentFrom_later {state : BreakState} {text first : Text} {later : List Text}
    (hstate : state ≠ .afterPrepend)
    (htext : ∀ c ∈ text, BreakClass.ofChar c ≠ .prependMark)
    (h : segmentFrom state text = first :: later) : segment later.flatten = later := by
  induction text generalizing state first later with
  | nil =>
    obtain ⟨_, rfl⟩ := List.cons.inj h
    rfl
  | cons c rest ih =>
    obtain ⟨hc, hrest⟩ := List.forall_mem_cons.mp htext
    have hnext := BreakState.step_ne_afterPrepend state hc
    obtain ⟨head, others, hothers⟩ :=
      exists_segmentFrom (state.step (BreakClass.ofChar c)).2 rest
    simp only [segmentFrom, hothers, grow] at h
    split at h
    · next hstarts =>
      obtain ⟨_, rfl⟩ := List.cons.inj h
      have hflatten := flatten_segmentFrom (state.step (BreakClass.ofChar c)).2 rest
      rw [hothers, List.flatten_cons] at hflatten
      have henter := hothers
      rw [BreakState.step_eq_enter hstate hstarts] at henter
      rw [List.flatten_cons, List.cons_append, hflatten, segment, henter, grow]
    · obtain ⟨_, rfl⟩ := List.cons.inj h
      exact ih hnext hrest hothers

/-- Clusters stay behind every cut of a text without marks that belong to what follows. -/
theorem separable_of_forall_ne {text : Text}
    (h : ∀ c ∈ text, BreakClass.ofChar c ≠ .prependMark) : Separable text := by
  intro left right hsegment
  induction left generalizing text with
  | nil =>
    rw [List.nil_append] at hsegment
    rw [← hsegment, flatten_segment]
  | cons cluster later ih =>
    have hlater : segment (later ++ right).flatten = later ++ right := by
      cases text with
      | nil => cases hsegment
      | cons c rest =>
        obtain ⟨hc, hrest⟩ := List.forall_mem_cons.mp h
        obtain ⟨head, others, hothers⟩ :=
          exists_segmentFrom (BreakState.enter (BreakClass.ofChar c)).2 rest
        have henter := BreakState.step_ne_afterPrepend .plain hc
        simp only [segment, hothers, grow] at hsegment
        obtain ⟨_, rfl⟩ := List.cons.inj hsegment
        exact segmentFrom_later henter hrest hothers
    refine ih ?_ hlater
    intro c hc
    rw [← flatten_segment text, hsegment, List.cons_append, List.flatten_cons] at h
    exact h c (List.mem_append_right _ hc)

/-- Ordinary text can be taken apart between any two code points. -/
theorem separable_of_isOrdinary {text : Text} (h : ∀ c ∈ text, isOrdinary c = true) :
    Separable text := by
  refine separable_of_forall_ne fun c hc hmark => ?_
  have hordinary := h c hc
  rw [isOrdinary, isSolitary, hmark] at hordinary
  cases hordinary

/-- A joiner behind a line feed joins it only where a mark that belongs to what follows stands
before the line feed. -/
theorem not_separable_markedBreak :
    ¬ Separable [Char.ofNat 0x600, '\n', Char.ofNat 0x200D] := by
  intro h
  have hright := h [[Char.ofNat 0x600]] [['\n', Char.ofNat 0x200D]] (by decide +kernel)
  exact absurd hright (by decide +kernel)

end Cluster

namespace Markup

/-- A cut goes through the clusters in order, adds up the width of those that it takes, and stops at
the first one that does not fit. -/
theorem fit_spec {width : Int} {force : Bool} {used reached : Nat} {clusters kept rest : List Text}
    (h : fit width force used clusters = (kept, rest, reached)) :
    kept ++ rest = clusters ∧ reached = used + sumNat (kept.map Cluster.width) ∧
      (∀ next ∈ rest.head?, width < (reached + Cluster.width next : Nat)) ∧
      (force = false → used ≤ max width 0 → reached ≤ max width 0) := by
  induction clusters generalizing force used kept rest reached with
  | nil =>
    obtain ⟨rfl, hrest⟩ := Prod.mk.inj h
    obtain ⟨rfl, rfl⟩ := Prod.mk.inj hrest
    exact ⟨rfl, rfl, by simp, fun _ hused => hused⟩
  | cons cluster later ih =>
    rw [fit] at h
    split at h
    · next hstop =>
      obtain ⟨rfl, hrest⟩ := Prod.mk.inj h
      obtain ⟨rfl, rfl⟩ := Prod.mk.inj hrest
      refine ⟨rfl, rfl, fun next hnext => ?_, fun _ hused => hused⟩
      obtain rfl : cluster = next := by simpa using hnext
      exact hstop.1
    · next hgo =>
      obtain ⟨rfl, hrest⟩ := Prod.mk.inj h
      obtain ⟨rfl, rfl⟩ := Prod.mk.inj hrest
      obtain ⟨happend, hused, hstop, hbound⟩ := ih rfl
      refine ⟨by rw [List.cons_append, happend], ?_, hstop, fun hforce _ => hbound rfl ?_⟩
      · rw [hused, List.map_cons, sumNat_cons, Nat.add_assoc]
      · have hfits : ¬ width < (used + Cluster.width cluster : Nat) := fun hover =>
          hgo ⟨hover, hforce⟩
        omega

end Markup

end TextGrid
