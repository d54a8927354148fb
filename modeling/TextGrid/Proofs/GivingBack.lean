import TextGrid.Proofs.FairShares

/-!
# Giving back from the right

When a row would not fit, bounded columns give back width, the rightmost one first, and none below
its least width. Main statement: a column gives back nothing before all bounded columns to its right
are at their least widths, and nothing is given back that the row has room for
(`resolve_yieldsFromRight`).
-/

namespace TextGrid

namespace Widths

open Demand

section GiveBack

variable {demands : List Demand} (hsound : ∀ demand ∈ demands, demand.Sound)

include hsound

/-- While some excess is left, every demand has given back all that it can spare. -/
theorem giveBack_of_left_pos {excess : Int} (hleft : 0 < (giveBack excess demands).2) :
    ∀ pair ∈ demands.zip (giveBack excess demands).1,
      pair.2 = pair.1.wanted - pair.1.spare := by
  induction demands with
  | nil => simp
  | cons demand later ih =>
    obtain ⟨hdemand, hlater⟩ := List.forall_mem_cons.mp hsound
    have hspare := hdemand.spare_nonneg
    simp only [giveBack, hdemand.given_eq] at hleft ⊢
    rw [List.zip_cons_cons, List.forall_mem_cons]
    exact ⟨by dsimp only; omega, ih hlater (by omega)⟩

/-- A demand gives back only after all those to its right have given back what they can spare. -/
theorem giveBack_rightmost (excess : Int) :
    (demands.zip (giveBack excess demands).1).Pairwise fun left right =>
      left.2 < left.1.wanted → right.2 = right.1.wanted - right.1.spare := by
  induction demands with
  | nil => exact .nil
  | cons demand later ih =>
    obtain ⟨hdemand, hlater⟩ := List.forall_mem_cons.mp hsound
    refine List.pairwise_cons.mpr ⟨fun right hright hshrunk => ?_, ih hlater⟩
    dsimp only at hshrunk
    rw [hdemand.given_eq] at hshrunk
    exact giveBack_of_left_pos hlater (by omega) right hright

/-- What was given back was too much, so that the excess is used up at most. -/
theorem giveBack_left_nonneg {excess : Int} {pair : Demand × Int}
    (hpair : pair ∈ demands.zip (giveBack excess demands).1) (hshrunk : pair.2 < pair.1.wanted) :
    0 < excess ∧ 0 ≤ (giveBack excess demands).2 := by
  have hexcess : 0 < excess := by
    by_contra hnone
    rw [giveBack_of_nonpos (by omega), ← List.map_prod_left_eq_zip] at hpair
    obtain ⟨demand, _, rfl⟩ := List.mem_map.mp hpair
    exact Int.lt_irrefl _ hshrunk
  have hleft := giveBack_left hsound excess
  omega

end GiveBack

/-! ### All widths -/

/-- A pair of a demand without a share and its width is one of those after giving back. -/
theorem mem_giveBack_of_mem_distribute {room : Int} {demands : List Demand} {pair : Demand × Int}
    (hpair : pair ∈ demands.zip (distribute room demands)) (hshare : pair.1.isShare = false) :
    pair ∈ demands.zip (giveBack (sumInt (demands.map wanted) - room) demands).1 := by
  have hmem : pair ∈ (demands.zip (distribute room demands)).filter (!·.1.isShare) :=
    List.mem_filter.mpr ⟨hpair, by simp [hshare]⟩
  rw [unshared_distribute] at hmem
  exact (List.mem_filter.mp hmem).1

section Distribute

variable {demands : List Demand} (hsound : ∀ demand ∈ demands, demand.Sound) {room : Int}

include hsound

/-- Shares get nothing where all cells are used up. -/
theorem eq_zero_of_isShare (hleft : 0 ≤ (giveBack (sumInt (demands.map wanted) - room) demands).2)
    {pair : Demand × Int} (hpair : pair ∈ demands.zip (distribute room demands))
    (hshare : pair.1.isShare = true) : pair.2 = 0 := by
  have hmem : pair.2 ∈ ((demands.zip (distribute room demands)).filter (·.1.isShare)).map (·.2) :=
    List.mem_map_of_mem (List.mem_filter.mpr ⟨hpair, hshare⟩)
  have hsum := sumInt_giveBack (sumInt (demands.map wanted) - room) demands
  have hroom : max (room - sumInt (giveBack (sumInt (demands.map wanted) - room) demands).1) 0 =
      0 := by omega
  rw [shared_distribute (parts_pos hsound), unshared_distribute, sumInt_giveBack_unshared,
    hroom] at hmem
  exact eq_zero_of_mem_fairShares hmem

/-- No width but a share falls below what its demand cannot spare or exceeds what it wants. -/
theorem distribute_bounds {pair : Demand × Int}
    (hpair : pair ∈ demands.zip (distribute room demands)) (hshare : pair.1.isShare = false) :
    pair.1.wanted - pair.1.spare ≤ pair.2 ∧ pair.2 ≤ pair.1.wanted :=
  (List.forall₂_iff_zip.mp (giveBack_bounds hsound _)).2
    (mem_giveBack_of_mem_distribute hpair hshare)

/-- A width whose demand can spare nothing is as wanted. -/
theorem distribute_rigid {pair : Demand × Int}
    (hpair : pair ∈ demands.zip (distribute room demands)) (hshare : pair.1.isShare = false)
    (hspare : pair.1.spare = 0) : pair.2 = pair.1.wanted := by
  obtain ⟨hleast, hmost⟩ := distribute_bounds hsound hpair hshare
  omega

/-- A width is less than wanted only if those to its right are as small as can be. -/
theorem distribute_rightmost (room : Int) :
    (demands.zip (distribute room demands)).Pairwise fun left right =>
      left.1.isShare = false → right.1.isShare = false →
        left.2 < left.1.wanted → right.2 = right.1.wanted - right.1.spare := by
  have hgiven := (giveBack_rightmost hsound (sumInt (demands.map wanted) - room)).filter
    (!·.1.isShare)
  rw [← unshared_distribute, List.pairwise_filter] at hgiven
  simpa using hgiven

/-- A width is less than wanted only if shares get nothing and all cells are used up. -/
theorem distribute_shrunk {pair : Demand × Int}
    (hpair : pair ∈ demands.zip (distribute room demands)) (hshare : pair.1.isShare = false)
    (hshrunk : pair.2 < pair.1.wanted) :
    (∀ other ∈ demands.zip (distribute room demands), other.1.isShare = true → other.2 = 0) ∧
      room ≤ sumInt (distribute room demands) := by
  obtain ⟨hexcess, hleft⟩ :=
    giveBack_left_nonneg hsound (mem_giveBack_of_mem_distribute hpair hshare) hshrunk
  refine ⟨fun other hother => eq_zero_of_isShare hsound hleft hother, ?_⟩
  rw [sumInt_distribute hsound]
  split <;> omega

/-- Widths exceed the room only if all of them are as small as can be. -/
theorem distribute_overfull (hfull : room < sumInt (distribute room demands)) {pair : Demand × Int}
    (hpair : pair ∈ demands.zip (distribute room demands)) :
    pair.2 = pair.1.wanted - pair.1.spare := by
  have hspare := sumInt_spare_nonneg hsound
  have hleft := giveBack_left hsound (sumInt (demands.map wanted) - room)
  rw [sumInt_distribute hsound] at hfull
  have hpositive : 0 < (giveBack (sumInt (demands.map wanted) - room) demands).2 := by
    split at hfull <;> omega
  cases hshare : pair.1.isShare with
  | true =>
    obtain ⟨parts, hparts⟩ := eq_share_of_isShare hshare
    rw [eq_zero_of_isShare hsound (by omega) hpair hshare, hparts]
    rfl
  | false =>
    exact giveBack_of_left_pos hsound hpositive pair (mem_giveBack_of_mem_distribute hpair hshare)

end Distribute

end Widths

/-! ### Columns -/

/-- Whether a column has a width between bounds, and does not keep its content whole. -/
def Column.IsBounded (column : Column) : Prop :=
  column.isExpand = false ∧ ∃ least most, column.width = .bounded least most

namespace Allotment

/-- Whether a bounded column got less than its natural width. -/
def IsShrunk (allotment : Allotment) : Prop :=
  allotment.column.IsBounded ∧
    allotment.width < allotment.column.naturalCells allotment.measured

variable {allotment : Allotment}

/-- A bounded column wants its natural width and can spare what is above its least one. -/
theorem demand_of_isBounded (h : allotment.column.IsBounded) :
    allotment.demand.isShare = false ∧
      allotment.demand.wanted = allotment.column.naturalCells allotment.measured ∧
      allotment.demand.wanted - allotment.demand.spare = allotment.column.leastCells := by
  obtain ⟨hexpand, least, most, hwidth⟩ := h
  obtain ⟨hwanted, _, hspare, hshare⟩ :=
    Demand.ofColumn_cells allotment.column allotment.measured
  have hfixed : allotment.column.fixedCells = 0 := by
    simp [Column.fixedCells, hwidth]
  have hcontent : allotment.column.contentCells allotment.measured = 0 := by
    simp [Column.contentCells, hexpand]
  refine ⟨?_, ?_, ?_⟩
  · rw [demand, hshare, ColumnLayout.isProportional, hwidth]
    rfl
  · rw [demand, hwanted]
    omega
  · rw [demand, hwanted, hspare]
    omega

end Allotment

/-- Whether the columns of a spec have widths for which bounded columns give back from the right. -/
structure Widths.YieldsFromRight (widths : Widths) (spec : Spec) (total : Int)
    (measured : Measured) : Prop where
  /-- Every column gets a width. -/
  columns : (widths.allotments spec measured).map (·.column) = spec.columns
  /-- Fixed columns get their own widths. -/
  fixed : ∀ allotment ∈ widths.allotments spec measured, allotment.column.isExpand = false →
    ∀ cells, allotment.column.width = .fixed cells → allotment.width = cells
  /-- Content that is kept whole gets the width that was measured for it. -/
  content : ∀ allotment ∈ widths.allotments spec measured, allotment.column.isExpand = true →
    allotment.width = allotment.measured.getD 0
  /-- Bounded columns get no less than their least widths, and no more than their natural ones. -/
  bounded : ∀ allotment ∈ widths.allotments spec measured, allotment.column.IsBounded →
    allotment.column.leastCells ≤ allotment.width ∧
      allotment.width ≤ allotment.column.naturalCells allotment.measured
  /-- To the right of a bounded column that shrank, all are at their least widths. -/
  rightmost : (widths.allotments spec measured).Pairwise fun left right =>
    left.IsShrunk → right.column.IsBounded → right.width = right.column.leastCells
  /-- Where a column shrank, the row has no cells to spare. -/
  tight : ∀ allotment ∈ widths.allotments spec measured, allotment.IsShrunk →
    (∀ other ∈ widths.allotments spec measured, other.isShare = true → other.width = 0) ∧
      total ≤ widths.sum + spec.overhead
  /-- A row is too wide only if no column could be narrower. -/
  overfull : total < widths.sum + spec.overhead →
    ∀ allotment ∈ widths.allotments spec measured,
      (allotment.column.IsBounded → allotment.width = allotment.column.leastCells) ∧
        (allotment.isShare = true → allotment.width = 0)

namespace Widths

variable {spec : Spec} {total : Int} {measured : Measured} {widths : Widths}

/-- **Giving back from the right.** Whenever widths are resolved, fixed columns and content that is
kept whole get their widths, and bounded columns get widths within their bounds that are smaller
than their natural ones only as far as the row would not fit, the rightmost columns first. -/
theorem resolve_yieldsFromRight (htotal : 1 ≤ total) (hmeasured : measured.Sound)
    (h : resolve spec total measured = .ok widths) :
    widths.YieldsFromRight spec total measured := by
  have hwidths := eq_distribute_of_resolve htotal h
  have hsound : ∀ demand ∈ Demand.ofSpec spec measured, demand.Sound :=
    Demand.sound_ofSpec hmeasured
  have hpairs := map_allotments widths spec measured
  have hsum : widths.sum = sumInt (distribute (total - spec.overhead)
      (Demand.ofSpec spec measured)) := by rw [hwidths, Widths.sum]
  rw [congrArg Widths.widths hwidths] at hpairs
  have hpair : ∀ allotment ∈ widths.allotments spec measured,
      (allotment.demand, allotment.width) ∈ (Demand.ofSpec spec measured).zip
        (distribute (total - spec.overhead) (Demand.ofSpec spec measured)) := by
    intro allotment hmem
    rw [← hpairs]
    exact List.mem_map_of_mem hmem
  constructor
  case columns => exact map_column_allotments (length_of_resolve htotal h)
  case fixed =>
    intro allotment hmem hexpand cells hcells
    have hdemand : allotment.demand = .fixed cells := by
      simp [Allotment.demand, Demand.ofColumn, hexpand, hcells]
    have hrigid := distribute_rigid hsound (hpair allotment hmem)
    rw [hdemand] at hrigid
    exact hrigid rfl rfl
  case content =>
    intro allotment hmem hexpand
    have hdemand : allotment.demand = .content (allotment.measured.getD 0) := by
      simp [Allotment.demand, Demand.ofColumn, hexpand]
    have hrigid := distribute_rigid hsound (hpair allotment hmem)
    rw [hdemand] at hrigid
    exact hrigid rfl rfl
  case bounded =>
    intro allotment hmem hbounded
    obtain ⟨hshare, hwanted, hleast⟩ := Allotment.demand_of_isBounded hbounded
    have hbounds := distribute_bounds hsound (hpair allotment hmem) hshare
    rwa [hleast, hwanted] at hbounds
  case rightmost =>
    have hrightmost := distribute_rightmost hsound (total - spec.overhead)
    rw [← hpairs, List.pairwise_map] at hrightmost
    refine hrightmost.imp ?_
    rintro left right hyields ⟨hleft, hshrunk⟩ hright
    obtain ⟨hshare, hwanted, _⟩ := Allotment.demand_of_isBounded hleft
    obtain ⟨hshare', _, hleast⟩ := Allotment.demand_of_isBounded hright
    exact (hyields hshare hshare' (by rwa [hwanted])).trans hleast
  case tight =>
    rintro allotment hmem ⟨hbounded, hshrunk⟩
    obtain ⟨hshare, hwanted, _⟩ := Allotment.demand_of_isBounded hbounded
    obtain ⟨hzero, hroom⟩ := distribute_shrunk hsound (hpair allotment hmem) hshare
      (by rwa [hwanted])
    refine ⟨fun other hother hisShare => hzero _ (hpair other hother) ?_, by omega⟩
    rw [other.isShare_demand, hisShare]
  case overfull =>
    intro hfull allotment hmem
    have hsmall := distribute_overfull hsound (by omega) (hpair allotment hmem)
    refine ⟨fun hbounded => ?_, fun hisShare => ?_⟩
    · rw [← (Allotment.demand_of_isBounded hbounded).2.2]
      exact hsmall
    · obtain ⟨parts, hparts⟩ :=
        Demand.eq_share_of_isShare (allotment.isShare_demand.trans hisShare)
      rw [hparts] at hsmall
      exact hsmall

/-- Bounded columns beside fixed ones and content that is kept whole. -/
def boundedSpec : Spec where
  columns := [⟨{ width := .bounded (.int 2) .null }, rfl⟩, ⟨{ width := .fixed 2 }, rfl⟩,
    ⟨{ width := .bounded (.int 1) .null }, rfl⟩,
    ⟨{ width := .bounded (.int 1) .null, overflow := .expand }, rfl⟩,
    ⟨{ width := .bounded (.int 2) (.int 5) }, rfl⟩]
  decorations := {}
  sound := Decorations.fault?_default
  whole := rfl

/-- Eighteen cells are five too few: the last column gives back three of them and is at its least
width, the third gives back the other two, and the first gives back nothing. -/
theorem resolve_boundedSpec_eighteen :
    (1 : Int) ≤ 18 ∧ Measured.Sound (some [4, 0, 7, 1]) ∧
      ∃ widths : Widths, widths.widths = [4, 2, 5, 1, 2] ∧
        resolve boundedSpec 18 (some [4, 0, 7, 1]) = .ok widths ∧
        widths.YieldsFromRight boundedSpec 18 (some [4, 0, 7, 1]) := by
  have htotal : (1 : Int) ≤ 18 := by decide
  have hmeasured : Measured.Sound (some [4, 0, 7, 1]) := by
    rintro _ ⟨rfl⟩
    decide
  have hresolve : resolve boundedSpec 18 (some [4, 0, 7, 1]) = .ok ⟨[4, 2, 5, 1, 2], 18⟩ := rfl
  exact ⟨htotal, hmeasured, ⟨[4, 2, 5, 1, 2], 18⟩, rfl, hresolve,
    resolve_yieldsFromRight htotal hmeasured hresolve⟩

end Widths

end TextGrid
