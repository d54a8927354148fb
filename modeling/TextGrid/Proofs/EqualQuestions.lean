import Mathlib.Data.List.Forall2
import TextGrid.WidthCache

/-!
# Equal questions have one answer

Questions are compared by value, and numbers of different kinds are equal when they denote the same
number. Resolving reads numbers only by their whole cells, so equal questions are resolved alike.
-/

namespace TextGrid

namespace Value

/-- Written forms do not count for the number that a value denotes. -/
@[simp] theorem fraction?_bare (value : Value) : value.bare.fraction? = value.fraction? := by
  induction value using bareInduction with
  | bare value h => rw [bare_of_ne h]
  | dressed value _ ih => exact ih

/-- A number is given over a positive denominator. -/
theorem denominator_pos : ∀ {value : Value} {numerator : Int} {denominator : Nat},
    value.fraction? = some (numerator, denominator) → 0 < denominator
  | bool _, _, _, h | int _, _, _, h => by
    obtain ⟨-, rfl⟩ := Prod.mk.inj (Option.some.inj h)
    exact Nat.one_pos
  | float (.finite _ _ _), _, _, h => by
    obtain ⟨-, rfl⟩ := Prod.mk.inj (Option.some.inj h)
    exact Nat.pow_pos (by decide)
  | dressed value _, _, _, h => @denominator_pos value _ _ h

/-- Fractions of one value have one floor. -/
theorem ediv_eq_of_mul_eq {m n : Int} {p q : Nat} (hp : 0 < p) (hq : 0 < q)
    (h : m * q = n * p) : m / p = n / q := by
  have hp' : (0 : Int) < p := by omega
  have hq' : (0 : Int) < q := by omega
  calc m / p = m * q / (p * q) := (Int.mul_ediv_mul_of_pos_left m p hq').symm
    _ = n * p / (q * p) := by rw [h, Int.mul_comm (p : Int) q]
    _ = n / q := Int.mul_ediv_mul_of_pos_left n q hp'

/-- A value that equals a bare one has the same whole cells. Values that are no finite numbers have
none. -/
theorem floor?_eq_of_sameAs {a b : Value} (h : a.sameAs b = true) : a.floor? = b.floor? := by
  induction a using bareInduction with
  | dressed a _ ih => exact ih h
  | bare a hbare =>
    have hnumbers : ∀ {m n : Int} {p q : Nat}, a.fraction? = some (m, p) →
        b.fraction? = some (n, q) → m * q = n * p → a.floor? = b.floor? := by
      intro m n p q ha hb heq
      simp only [floor?, ha, hb, Option.map_some]
      rw [ediv_eq_of_mul_eq (denominator_pos ha) (denominator_pos hb) heq]
    unfold sameAs at h
    split at h
    case h_1 => exact absurd rfl (hbare _ _)
    -- Every case but the last is about two values that are no finite numbers.
    all_goals try rfl
    split at h
    · next m p n q ha hb => exact hnumbers ha hb (by simpa using h)
    · exact absurd h (by simp)

/-- Equal values have the same whole cells. -/
theorem floor?_eq_of_same {a b : Value} (h : a.same b = true) : a.floor? = b.floor? := by
  rw [floor?_eq_of_sameAs h, floor?, floor?, fraction?_bare]

end Value

/-- Equal width rules are shares alike. -/
theorem WidthRule.parts?_eq_of_same {a b : WidthRule} (h : a.same b = true) :
    a.parts? = b.parts? := by
  cases a <;> cases b <;> simp_all [WidthRule.same, WidthRule.parts?]

/-- Equal overflow rules keep content whole alike. -/
theorem Overflow.isExpand_eq_of_same {a b : Overflow} (h : a.same b = true) :
    a.isExpand = b.isExpand := by
  cases a <;> cases b <;> simp_all [Overflow.same, Overflow.isExpand]

namespace ColumnLayout

variable {a b : ColumnLayout}

/-- Equal layouts take a share alike. -/
theorem isProportional_eq_of_same (h : a.same b = true) : a.isProportional = b.isProportional := by
  simp only [same, Bool.and_eq_true] at h
  rw [isProportional, isProportional, WidthRule.parts?_eq_of_same h.1.1.1.2]

/-- Equal layouts keep content whole alike. -/
theorem isExpand_eq_of_same (h : a.same b = true) : a.isExpand = b.isExpand := by
  simp only [same, Bool.and_eq_true] at h
  exact Overflow.isExpand_eq_of_same h.1.1.2

end ColumnLayout

/-- Equal columns ask for the same. -/
theorem Demand.ofColumn_eq_of_same {a b : Column}
    (h : a.toColumnLayout.same b.toColumnLayout = true) (measured : Option Int) :
    ofColumn a measured = ofColumn b measured := by
  have hexpand := ColumnLayout.isExpand_eq_of_same h
  simp only [ColumnLayout.same, Bool.and_eq_true] at h
  have hwidth := h.1.1.1.2
  unfold ofColumn
  rw [hexpand]
  generalize a.width = first, b.width = second at hwidth ⊢
  cases first <;> cases second <;> simp only [WidthRule.same, Bool.and_eq_true, beq_iff_eq,
    Bool.false_eq_true] at hwidth
  case bounded least most least' most' =>
    have hleast := Value.floor?_eq_of_same hwidth.1
    have hmost := Value.floor?_eq_of_same hwidth.2
    simp only [WidthRule.lowerCells, WidthRule.upperCells?, hleast, hmost]
  all_goals simp [hwidth]

/-- Whether two columns ask for the same width, whatever was measured. -/
structure Column.AsksLike (a b : Column) : Prop where
  isExpand : a.isExpand = b.isExpand
  isProportional : a.isProportional = b.isProportional
  demand : ∀ measured, Demand.ofColumn a measured = Demand.ofColumn b measured

/-- Equal columns ask for the same width, whatever they measure. -/
theorem Column.asksLike_of_same {a b : Column}
    (h : a.toColumnLayout.same b.toColumnLayout = true) : a.AsksLike b where
  isExpand := ColumnLayout.isExpand_eq_of_same h
  isProportional := ColumnLayout.isProportional_eq_of_same h
  demand := Demand.ofColumn_eq_of_same h

section Columns

variable {a b : Spec} (hcolumns : List.Forall₂ Column.AsksLike a.columns b.columns)

include hcolumns

/-- Specs whose columns ask alike make the same demands. -/
theorem Demand.ofSpec_congr (measured : Measured) : ofSpec a measured = ofSpec b measured := by
  unfold ofSpec
  generalize a.columns = first, b.columns = second, 0 = start at hcolumns ⊢
  induction hcolumns generalizing start with
  | nil => rfl
  | cons hcolumn _ ih =>
    simp only [List.zipIdx_cons, List.map_cons, ih, hcolumn.demand]

/-- Specs whose columns ask alike lack the same measure. -/
theorem Widths.unmeasured?_congr (measured : Measured) :
    unmeasured? a measured = unmeasured? b measured := by
  have hshares : a.columns.any (·.isProportional) = b.columns.any (·.isProportional) := by
    generalize a.columns = first, b.columns = second at hcolumns ⊢
    induction hcolumns with
    | nil => rfl
    | cons hcolumn _ ih => rw [List.any_cons, List.any_cons, ih, hcolumn.isProportional]
  have hfound : (a.columns.zipIdx.find? fun entry =>
        entry.1.isExpand && (measured.at? entry.2).isNone).map (·.2) =
      (b.columns.zipIdx.find? fun entry =>
        entry.1.isExpand && (measured.at? entry.2).isNone).map (·.2) := by
    generalize a.columns = first, b.columns = second, 0 = start at hcolumns ⊢
    induction hcolumns generalizing start with
    | nil => rfl
    | cons hcolumn _ ih =>
      simp only [List.zipIdx_cons, List.find?_cons, hcolumn.isExpand]
      split
      · rfl
      · exact ih (start + 1)
  rw [unmeasured?, unmeasured?, hshares]
  split
  · exact hfound
  · rfl

/-- Specs whose columns ask alike beside equally wide decorations are resolved alike. -/
theorem Widths.resolve_congr (hoverhead : a.overhead = b.overhead) (total : Int)
    (measured : Measured) : resolve a total measured = resolve b total measured := by
  have hlength := hcolumns.length_eq
  have hempty : a.columns = [] ↔ b.columns = [] := by
    rw [← List.length_eq_zero_iff, hlength, List.length_eq_zero_iff]
  have hzero : a.columns.map (fun _ => (0 : Int)) = b.columns.map fun _ => 0 := by
    rw [List.map_const', List.map_const', hlength]
  simp only [resolve, hempty, hzero, unmeasured?_congr hcolumns, Demand.ofSpec_congr hcolumns,
    hoverhead]

end Columns

namespace Spec

/-- Specs are equal if they have equal columns in the same order and the same decorations. -/
theorem same_iff {a b : Spec} :
    a.same b = true ↔
      List.Forall₂ (fun a b => a.toColumnLayout.same b.toColumnLayout = true) a.columns b.columns ∧
        a.decorations = b.decorations := by
  simp only [same, Bool.and_eq_true, beq_iff_eq, List.all_eq_true, List.forall₂_iff_zip,
    Prod.forall]

/-- Equal specs have columns that ask alike, position by position, and the same decorations. -/
theorem asksLike_of_same {a b : Spec} (h : a.same b = true) :
    List.Forall₂ Column.AsksLike a.columns b.columns ∧ a.decorations = b.decorations := by
  obtain ⟨hcolumns, hdecorations⟩ := same_iff.mp h
  exact ⟨hcolumns.imp fun _ _ hcolumn => Column.asksLike_of_same hcolumn, hdecorations⟩

/-- Decorations of the same width take the same cells of a row with as many columns. -/
theorem overhead_congr {a b : Spec} (hlength : a.columns.length = b.columns.length)
    (hparts : ∀ part, a.partWidth part = b.partWidth part) : a.overhead = b.overhead := by
  have hempty : a.columns.isEmpty = b.columns.isEmpty := by
    rw [Bool.eq_iff_iff, List.isEmpty_iff_length_eq_zero, List.isEmpty_iff_length_eq_zero, hlength]
  simp only [overhead, hempty, hlength, hparts]

end Spec

/-- Questions that are equal by value have the same answer or the same error. -/
theorem WidthQuery.resolve_eq_of_same {a b : WidthQuery} (h : a.same b = true) :
    a.resolve = b.resolve := by
  simp only [same, Bool.and_eq_true, beq_iff_eq] at h
  obtain ⟨⟨hspec, htotal⟩, hmeasured⟩ := h
  obtain ⟨hcolumns, hdecorations⟩ := Spec.asksLike_of_same hspec
  have hparts : ∀ part, a.spec.partWidth part = b.spec.partWidth part := fun part => by
    rw [Spec.partWidth, Spec.partWidth, hdecorations]
  rw [resolve, resolve, htotal, hmeasured]
  exact Widths.resolve_congr hcolumns (Spec.overhead_congr hcolumns.length_eq hparts) _ _

end TextGrid
