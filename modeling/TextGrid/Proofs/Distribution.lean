import Mathlib.Order.Basic
import TextGrid.Proofs.Results
import TextGrid.Resolve

/-!
# Widths for demands

Bounded demands give back exactly the excess, or all that they can spare. Shares add up to exactly
the cells that are left over, and are put into the places of the demands for shares. Together these
facts give the sum of the widths for any list of demands (`sumInt_distribute`).
-/

namespace TextGrid

/-- A common factor of all summands is a factor of the sum. -/
theorem sumInt_map_mul (factor : Int) (numbers : List Int) :
    sumInt (numbers.map (factor * ·)) = factor * sumInt numbers := by
  induction numbers with
  | nil => simp
  | cons number rest ih => simp only [List.map_cons, sumInt_cons, ih, Int.mul_add]

/-- A sum of numbers that are not negative is not negative. -/
theorem sumInt_nonneg {numbers : List Int} (h : ∀ number ∈ numbers, 0 ≤ number) :
    0 ≤ sumInt numbers := by
  induction numbers with
  | nil => simp
  | cons number rest ih =>
    have hnumber := h number (by simp)
    have hrest := ih fun next hnext => h next (by simp [hnext])
    simp only [sumInt_cons]
    omega

namespace Demand

/-- A demand that a sound column makes: nothing is negative, a flexible width wants at least its
least one, and a share has at least one part. -/
def Sound : Demand → Prop
  | content width | fixed width => 0 ≤ width
  | flexible least wanted => 0 ≤ least ∧ least ≤ wanted
  | share parts => 1 ≤ parts

/-- The width that a demand can spare. -/
def spare : Demand → Int
  | flexible least wanted => wanted - least
  | content _ | fixed _ | share _ => 0

/-- A sound demand has no negative width to give back. -/
theorem Sound.spare_nonneg {demand : Demand} (h : demand.Sound) : 0 ≤ demand.spare := by
  cases demand with
  | flexible least wanted => simp only [Sound, spare] at h ⊢; omega
  | content width | fixed width | share parts => simp [spare]

/-- What a demand wants and cannot spare is its own and not negative. -/
theorem Sound.spare_le_wanted {demand : Demand} (h : demand.Sound) :
    demand.spare ≤ demand.wanted := by
  cases demand with
  | flexible least most => simp only [Sound, spare, wanted] at h ⊢; omega
  | content width | fixed width => simpa [spare, wanted, Sound] using h
  | share parts => simp [spare, wanted]

/-- A demand gives back what is too much, as far as it can spare it. -/
theorem Sound.given_eq {demand : Demand} (h : demand.Sound) (excess : Int) :
    demand.given excess = min (max excess 0) demand.spare := by
  cases demand with
  | flexible least wanted =>
    simp only [Sound] at h
    simp only [given, spare]
    split <;> omega
  | content width | fixed width | share parts =>
    simp only [given, spare]
    omega

/-- Sound demands have no negative width to give back together. -/
theorem sumInt_spare_nonneg {demands : List Demand} (h : ∀ demand ∈ demands, demand.Sound) :
    0 ≤ sumInt (demands.map spare) := by
  apply sumInt_nonneg
  intro number hnumber
  obtain ⟨demand, hdemand, rfl⟩ := List.mem_map.mp hnumber
  exact (h demand hdemand).spare_nonneg

end Demand

namespace Widths

open Demand

/-! ### Giving back -/

/-- Every demand keeps a width when width is given back. -/
@[simp] theorem length_giveBack (excess : Int) (demands : List Demand) :
    (giveBack excess demands).1.length = demands.length := by
  induction demands with
  | nil => rfl
  | cons demand later ih => simp [giveBack, ih]

/-- The excess that is left is what the demands together could not spare. -/
theorem giveBack_left {demands : List Demand} (h : ∀ demand ∈ demands, demand.Sound)
    (excess : Int) :
    (giveBack excess demands).2 =
      excess - min (max excess 0) (sumInt (demands.map spare)) := by
  induction demands with
  | nil =>
    simp only [giveBack, List.map_nil, sumInt_nil]
    omega
  | cons demand later ih =>
    have hdemand := h demand (by simp)
    have hrest : ∀ next ∈ later, next.Sound := fun next hnext => h next (by simp [hnext])
    have hlater := ih hrest
    have hspare := hdemand.spare_nonneg
    have hspares := sumInt_spare_nonneg hrest
    simp only [giveBack, hdemand.given_eq, hlater, List.map_cons, sumInt_cons]
    omega

/-- What the widths lack of the wanted ones is what the excess lost. -/
theorem sumInt_giveBack (excess : Int) (demands : List Demand) :
    sumInt (giveBack excess demands).1 =
      sumInt (demands.map wanted) - (excess - (giveBack excess demands).2) := by
  induction demands with
  | nil => simp [giveBack]
  | cons demand later ih =>
    simp only [giveBack, sumInt_cons, List.map_cons, ih]
    omega

/-- Where nothing is too much, all get what they want. -/
theorem giveBack_of_nonpos {excess : Int} (h : excess ≤ 0) (demands : List Demand) :
    giveBack excess demands = (demands.map wanted, excess) := by
  induction demands with
  | nil => rfl
  | cons demand later ih =>
    have hgiven : demand.given excess = 0 := by
      cases demand with
      | flexible least wanted => exact if_neg (by omega)
      | content width | fixed width | share parts => rfl
    simp [giveBack, ih, hgiven]

/-- No width falls below what its demand cannot spare, and none exceeds what it wants. -/
theorem giveBack_bounds {demands : List Demand} (h : ∀ demand ∈ demands, demand.Sound)
    (excess : Int) :
    List.Forall₂ (fun demand width => demand.wanted - demand.spare ≤ width ∧ width ≤ demand.wanted)
      demands (giveBack excess demands).1 := by
  induction demands with
  | nil => exact .nil
  | cons demand later ih =>
    have hdemand := h demand (by simp)
    have hspare := hdemand.spare_nonneg
    refine .cons ?_ (ih fun next hnext => h next (by simp [hnext]))
    rw [hdemand.given_eq]
    omega

/-! ### Sharing -/

/-- There are as many widths after a round as before it. -/
@[simp] theorem length_topUp (count : Nat) (widths : List Int) :
    (topUp count widths).length = widths.length := by
  induction widths generalizing count with
  | nil => cases count <;> rfl
  | cons width later ih => cases count <;> simp [topUp, ih]

/-- A round over some of the widths deals out one cell for each of them. -/
theorem sumInt_topUp {count : Nat} {widths : List Int} (h : count ≤ widths.length) :
    sumInt (topUp count widths) = sumInt widths + count := by
  induction widths generalizing count with
  | nil =>
    obtain rfl : count = 0 := by simpa using h
    simp [topUp]
  | cons width later ih =>
    cases count with
    | zero => simp [topUp]
    | succ count =>
      have hlater : count ≤ later.length := by simpa using h
      simp only [topUp, sumInt_cons, ih hlater]
      omega

/-- One cell more leaves no width smaller. -/
theorem topUp_nonneg {count : Nat} {widths : List Int} (h : ∀ width ∈ widths, 0 ≤ width) :
    ∀ width ∈ topUp count widths, 0 ≤ width := by
  induction widths generalizing count with
  | nil => cases count <;> simp [topUp]
  | cons width later ih =>
    cases count with
    | zero => simpa [topUp] using h
    | succ count =>
      have hwidth := h width (by simp)
      have hlater : ∀ next ∈ topUp count later, 0 ≤ next :=
        ih fun next hnext => h next (by simp [hnext])
      intro next hnext
      rcases List.mem_cons.mp hnext with rfl | hmem
      · omega
      · exact hlater next hmem

/-- There are as many widths after dealing as before it. -/
@[simp] theorem length_deal (count : Nat) (widths : List Int) :
    (deal count widths).length = widths.length := by
  fun_induction deal count widths with
  | case1 count widths h => simp
  | case2 count widths h ih => simpa using ih

/-- Every cell that is dealt out arrives somewhere. -/
theorem sumInt_deal {widths : List Int} (count : Nat) (h : widths ≠ []) :
    sumInt (deal count widths) = sumInt widths + count := by
  fun_induction deal count widths with
  | case1 count widths hstop => exact sumInt_topUp (by simpa [h] using hstop)
  | case2 count widths hstop ih =>
    have hround : topUp widths.length widths ≠ [] := by
      rw [ne_eq, ← List.length_eq_zero_iff, length_topUp, List.length_eq_zero_iff]
      exact h
    have hcount : widths.length < count := by
      by_contra hle
      exact hstop (.inl (by omega))
    rw [ih hround, sumInt_topUp (Nat.le_refl _)]
    omega

/-- Dealing cells out makes no width negative. -/
theorem deal_nonneg {count : Nat} {widths : List Int} (h : ∀ width ∈ widths, 0 ≤ width) :
    ∀ width ∈ deal count widths, 0 ≤ width := by
  fun_induction deal count widths with
  | case1 count widths hstop => exact topUp_nonneg h
  | case2 count widths hstop ih => exact ih (topUp_nonneg h)

/-- There is one share for each number of parts. -/
@[simp] theorem length_shares (remaining : Int) (parts : List Int) :
    (shares remaining parts).length = parts.length := by
  simp [shares]

/-- Shares add up to the cells that were shared. -/
theorem sumInt_shares {remaining : Int} {parts : List Int} (hparts : parts ≠ [])
    (hpositive : 0 < sumInt parts) : sumInt (shares remaining parts) = remaining := by
  have hmod := Int.emod_nonneg remaining (by omega : sumInt parts ≠ 0)
  have hdiv := Int.mul_ediv_add_emod remaining (sumInt parts)
  rw [Int.mul_comm] at hdiv
  simp only [shares]
  rw [sumInt_deal _ (by simpa using hparts), sumInt_map_mul]
  omega

/-- Shares of no negative room are not negative. -/
theorem shares_nonneg {remaining : Int} {parts : List Int} (hremaining : 0 ≤ remaining)
    (hparts : ∀ part ∈ parts, 0 ≤ part) : ∀ share ∈ shares remaining parts, 0 ≤ share := by
  apply deal_nonneg
  intro width hwidth
  obtain ⟨part, hpart, rfl⟩ := List.mem_map.mp hwidth
  exact Int.mul_nonneg (Int.ediv_nonneg hremaining (sumInt_nonneg hparts)) (hparts part hpart)

/-! ### Placing the shares -/

/-- There are as many widths after shares are put in as before it. -/
@[simp] theorem length_place (demands : List Demand) (widths shares : List Int) :
    (place demands widths shares).length = widths.length := by
  fun_induction place demands widths shares <;> simp_all

/-- A placed width is one of the widths or one of the shares. -/
theorem mem_place {demands : List Demand} {widths shares : List Int} {width : Int}
    (h : width ∈ place demands widths shares) : width ∈ widths ∨ width ∈ shares := by
  fun_induction place demands widths shares with
  | case1 parts demands first widths share shares ih =>
    rcases List.mem_cons.mp h with rfl | hmem
    · simp
    · rcases ih hmem with hwidth | hshare <;> simp [*]
  | case2 demand demands first widths shares hshares ih =>
    rcases List.mem_cons.mp h with rfl | hmem
    · simp
    · rcases ih hmem with hwidth | hshare <;> simp [*]
  | case3 demands widths shares => exact .inl h

/-- Shares add to the widths where a demand for a share has none yet. -/
theorem sumInt_place {demands : List Demand} {widths shares : List Int}
    (hwidths : List.Forall₂ (fun demand width => demand.isShare = true → width = 0) demands widths)
    (hshares : shares.length = (demands.filter isShare).length) :
    sumInt (place demands widths shares) = sumInt widths + sumInt shares := by
  induction hwidths generalizing shares with
  | nil =>
    obtain rfl : shares = [] := by simpa using hshares
    simp [place]
  | @cons demand width demands widths hwidth hrest ih =>
    cases demand with
    | share parts =>
      obtain rfl := hwidth rfl
      cases shares with
      | nil => simp [List.filter_cons, isShare] at hshares
      | cons share shares =>
        have hcount : shares.length = (demands.filter isShare).length := by
          simpa [List.filter_cons, isShare] using hshares
        simp only [place, sumInt_cons, ih hcount]
        omega
    | content wanted | fixed wanted | flexible least wanted =>
      have hcount : shares.length = (demands.filter isShare).length := by
        simpa [List.filter_cons, isShare] using hshares
      simp only [place, sumInt_cons, ih hcount]
      omega

/-! ### All widths -/

/-- The demands for shares ask for at least one part each. -/
theorem parts_pos {demands : List Demand} (h : ∀ demand ∈ demands, demand.Sound) :
    ∀ part ∈ (demands.filter isShare).map parts, 1 ≤ part := by
  intro part hpart
  obtain ⟨demand, hdemand, rfl⟩ := List.mem_map.mp hpart
  obtain ⟨hmem, hshare⟩ := List.mem_filter.mp hdemand
  cases demand with
  | share parts => exact h _ hmem
  | content width | fixed width | flexible least wanted => simp [isShare] at hshare

/-- A sum of parts, of which there are some, is positive. -/
theorem sumInt_pos {parts : List Int} (hparts : parts ≠ []) (h : ∀ part ∈ parts, 1 ≤ part) :
    0 < sumInt parts := by
  obtain ⟨first, later, rfl⟩ := List.exists_cons_of_ne_nil hparts
  have hfirst := h first (by simp)
  have hlater : 0 ≤ sumInt later := by
    apply sumInt_nonneg
    intro part hpart
    have := h part (by simp [hpart])
    omega
  simp only [sumInt_cons]
  omega

/-- Every demand gets a width. -/
theorem length_distribute (room : Int) (demands : List Demand) :
    (distribute room demands).length = demands.length := by
  simp only [distribute]
  split <;> simp

/-- No width is negative. -/
theorem distribute_nonneg {demands : List Demand} (h : ∀ demand ∈ demands, demand.Sound)
    (room : Int) : ∀ width ∈ distribute room demands, 0 ≤ width := by
  have hgiven : ∀ width ∈ (giveBack (sumInt (demands.map wanted) - room) demands).1,
      0 ≤ width := by
    intro width hwidth
    obtain ⟨demand, hdemand, hbounds⟩ :=
      exists_mem_of_forall₂ (giveBack_bounds h _) hwidth
    have := (h demand hdemand).spare_le_wanted
    omega
  intro width hwidth
  simp only [distribute] at hwidth
  split at hwidth
  · exact hgiven width hwidth
  · rcases mem_place hwidth with hmem | hmem
    · exact hgiven width hmem
    · refine shares_nonneg (by omega) (fun part hpart => ?_) width hmem
      have := parts_pos h part hpart
      omega

/-- The widths fill the room if there are shares, and otherwise are the wanted ones as far as the
room allows. In either case they are as great as what cannot be spared. -/
theorem sumInt_distribute {demands : List Demand} (h : ∀ demand ∈ demands, demand.Sound)
    (room : Int) :
    sumInt (distribute room demands) =
      if demands.any isShare then
        max room (sumInt (demands.map wanted) - sumInt (demands.map spare))
      else min (sumInt (demands.map wanted))
        (max room (sumInt (demands.map wanted) - sumInt (demands.map spare))) := by
  have hleft := giveBack_left h (sumInt (demands.map wanted) - room)
  have hsum := sumInt_giveBack (sumInt (demands.map wanted) - room) demands
  have hspare := sumInt_spare_nonneg h
  have hnone : (((demands.filter isShare).map parts).isEmpty = true) ↔ ¬demands.any isShare := by
    simp
  simp only [distribute, hnone]
  by_cases hany : demands.any isShare = true
  · have hparts : (demands.filter isShare).map parts ≠ [] := by
      intro hempty
      exact hnone.mp (by simp [hempty]) hany
    have hzero : List.Forall₂ (fun demand width => demand.isShare = true → width = 0) demands
        (giveBack (sumInt (demands.map wanted) - room) demands).1 := by
      refine (giveBack_bounds h _).imp fun demand width hbounds hshare => ?_
      cases demand with
      | share parts => simp only [wanted, spare] at hbounds; omega
      | content width | fixed width | flexible least wanted => simp [isShare] at hshare
    rw [if_neg (by simpa using hany), if_pos hany, sumInt_place hzero (by simp),
      sumInt_shares hparts (sumInt_pos hparts (parts_pos h)), hsum, hleft]
    omega
  · rw [if_pos hany, if_neg hany, hsum, hleft]
    omega

end Widths

end TextGrid
