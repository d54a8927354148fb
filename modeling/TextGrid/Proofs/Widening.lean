import TextGrid.Proofs.FairShares

/-!
# Widening

Two runs at different total widths are compared column by column. A greater total width makes no
bounded column smaller and leaves more to share. Main statement: where all shares have equally many
parts, no column gets narrower (`resolve_widens`).
-/

namespace TextGrid

namespace Widths

open Demand

/-! ### Two excesses -/

/-- A smaller excess takes less from every width, and no more of it is left. -/
theorem giveBack_mono {demands : List Demand} (hsound : ∀ demand ∈ demands, demand.Sound)
    {excess excess' : Int} (hle : excess' ≤ excess) :
    (giveBack excess' demands).2 ≤ (giveBack excess demands).2 ∧
      List.Forall₂ (· ≤ ·) (giveBack excess demands).1 (giveBack excess' demands).1 := by
  induction demands with
  | nil => exact ⟨hle, .nil⟩
  | cons demand later ih =>
    obtain ⟨hdemand, hlater⟩ := List.forall_mem_cons.mp hsound
    obtain ⟨hleft, hwidths⟩ := ih hlater
    have hspare := hdemand.spare_nonneg
    simp only [giveBack, hdemand.given_eq]
    exact ⟨by omega, .cons (by omega) hwidths⟩

/-! ### Two rooms to share -/

/-- The share at a position among columns with equally many parts. -/
def evenShare (room count : Int) (position : Nat) : Int :=
  room / count + if (position : Int) < room % count then 1 else 0

/-- Equal numbers add up to their number of times one of them. -/
theorem sumInt_of_equal {numbers : List Int} {number : Int}
    (h : ∀ other ∈ numbers, other = number) : sumInt numbers = numbers.length * number := by
  induction numbers with
  | nil => simp
  | cons first later ih =>
    obtain ⟨hfirst, hlater⟩ := List.forall_mem_cons.mp h
    rw [sumInt_cons, ih hlater, hfirst, List.length_cons, Int.natCast_succ, Int.add_mul,
      Int.one_mul, Int.add_comm]

/-- Equally many parts for all columns do not matter, however many they are. -/
theorem fairShares_of_equal {parts : List Int} (hpositive : ∀ part ∈ parts, 1 ≤ part)
    (hequal : ∀ part ∈ parts, ∀ part' ∈ parts, part = part') (room : Int) :
    fairShares room parts =
      (List.range parts.length).map fun position => evenShare room parts.length position := by
  refine List.ext_getElem (by simp [fairShares]) fun position hposition _ => ?_
  have hindex : position < parts.length := by simpa [fairShares] using hposition
  have hpart := List.getElem_mem hindex
  have hsum : sumInt parts = parts.length * parts[position] :=
    sumInt_of_equal fun other hother => hequal other hother _ hpart
  have hone := hpositive _ hpart
  have hroom : room = room % sumInt parts +
      parts.length * (parts[position] * (room / sumInt parts)) := by
    rw [← Int.mul_assoc, ← hsum, Int.emod_add_mul_ediv]
  have hdiv : room / parts.length = room / sumInt parts * parts[position] +
      room % sumInt parts / parts.length := by
    conv_lhs => rw [hroom]
    rw [Int.add_mul_ediv_left _ _ (by omega), Int.add_comm, Int.mul_comm parts[position]]
  have hmod : room % parts.length = room % sumInt parts % parts.length := by
    conv_lhs => rw [hroom]
    rw [Int.add_mul_emod_self_left]
  simp only [fairShares, List.getElem_mapIdx, List.getElem_map, List.getElem_range, evenShare, hdiv,
    hmod]

/-- An even share of more room is not smaller. -/
theorem evenShare_mono {room room' count : Int} (hcount : 0 < count) (hle : room ≤ room')
    (position : Nat) : evenShare room count position ≤ evenShare room' count position := by
  have hdiv : room / count ≤ room' / count := Int.ediv_le_ediv hcount hle
  have hroom := Int.mul_ediv_add_emod room count
  have hroom' := Int.mul_ediv_add_emod room' count
  unfold evenShare
  -- With one more whole round every position has its extra cell already.
  rcases Int.lt_or_eq_of_le hdiv with hless | hsame
  · split <;> split <;> omega
  · rw [hsame] at hroom ⊢
    split <;> split <;> omega

/-- More room makes no share of equally many parts smaller. -/
theorem fairShares_mono {parts : List Int} (hpositive : ∀ part ∈ parts, 1 ≤ part)
    (hequal : ∀ part ∈ parts, ∀ part' ∈ parts, part = part') {room room' : Int}
    (hle : room ≤ room') :
    List.Forall₂ (· ≤ ·) (fairShares room parts) (fairShares room' parts) := by
  rw [fairShares_of_equal hpositive hequal, fairShares_of_equal hpositive hequal,
    List.forall₂_map_left_iff, List.forall₂_map_right_iff, List.forall₂_same]
  intro position hposition
  have hcount : (0 : Int) < parts.length := by
    have := List.mem_range.mp hposition
    omega
  exact evenShare_mono hcount hle position

/-- With unequal parts a cell more can complete a unit, which takes cells of the first column. -/
example : fairShares 3 [1, 3] = [2, 1] ∧ fairShares 4 [1, 3] = [1, 3] := by decide

/-- Greater shares in the places of smaller ones make no width smaller. -/
theorem place_mono (demands : List Demand) {widths widths' shares shares' : List Int}
    (hwidths : List.Forall₂ (· ≤ ·) widths widths')
    (hshares : List.Forall₂ (· ≤ ·) shares shares') :
    List.Forall₂ (· ≤ ·) (place demands widths shares) (place demands widths' shares') := by
  induction hwidths generalizing demands shares shares' with
  | nil => cases demands <;> simp [place]
  | cons hwidth hlater ih =>
    cases demands with
    | nil => exact .cons hwidth hlater
    | cons demand demands =>
      cases demand with
      | share parts =>
        cases hshares with
        | nil => exact .cons hwidth (ih demands .nil)
        | cons hshare hshares => exact .cons hshare (ih demands hshares)
      | content wanted | fixed wanted | flexible least wanted =>
        exact .cons hwidth (ih demands hshares)

/-! ### Two total widths -/

/-- More room makes no width smaller if all shares have equally many parts. -/
theorem distribute_mono {demands : List Demand} (hsound : ∀ demand ∈ demands, demand.Sound)
    (hequal : ∀ part ∈ (demands.filter isShare).map parts,
      ∀ part' ∈ (demands.filter isShare).map parts, part = part') {room room' : Int}
    (hle : room ≤ room') :
    List.Forall₂ (· ≤ ·) (distribute room demands) (distribute room' demands) := by
  have hexcess : sumInt (demands.map wanted) - room' ≤ sumInt (demands.map wanted) - room := by
    omega
  obtain ⟨hleft, hwidths⟩ := giveBack_mono hsound hexcess
  have hsum := sumInt_giveBack (sumInt (demands.map wanted) - room) demands
  have hsum' := sumInt_giveBack (sumInt (demands.map wanted) - room') demands
  by_cases hnone : (demands.filter isShare).map parts = []
  · simp only [distribute, hnone, List.isEmpty_nil, if_true]
    exact hwidths
  · have hpositive := parts_pos hsound
    rw [distribute_of_shares hnone hpositive, distribute_of_shares hnone hpositive]
    exact place_mono demands hwidths (fairShares_mono hpositive hequal (by omega))

variable {spec : Spec} {total wider : Int} {measured : Measured} {widths : Widths}

/-- **Widening.** Where all shares have equally many parts, a spec that resolves at a total width
resolves at every greater one, and no column gets narrower. -/
theorem resolve_widens (hequal : ∀ part ∈ spec.parts, ∀ part' ∈ spec.parts, part = part')
    (hmeasured : measured.Sound) (htotal : 1 ≤ total) (hwider : total ≤ wider)
    (h : resolve spec total measured = .ok widths) :
    ∃ widths', resolve spec wider measured = .ok widths' ∧
      List.Forall₂ (· ≤ ·) widths.widths widths'.widths := by
  obtain ⟨hmeasure, hwide⟩ := (exists_resolve_iff htotal).mp ⟨widths, h⟩
  obtain ⟨widths', h'⟩ := (exists_resolve_iff (by omega)).mpr
    ⟨hmeasure, Int.le_trans hwide hwider⟩
  refine ⟨widths', h', ?_⟩
  rw [eq_distribute_of_resolve htotal h, eq_distribute_of_resolve (by omega) h']
  refine distribute_mono (Demand.sound_ofSpec hmeasured) ?_ (by omega)
  rwa [Demand.parts_ofSpec]

/-- A bounded column between two shares of five parts each. -/
def evenSpec : Spec where
  columns := [⟨{ width := .fraction 5 }, rfl⟩, ⟨{ width := .bounded (.int 2) (.int 7) }, rfl⟩,
    ⟨{ width := .fraction 5 }, rfl⟩]
  decorations := {}
  sound := Decorations.fault?_default
  whole := rfl

/-- With six cells the bounded column shrinks; five more give it its natural width and leave two to
share. -/
theorem resolve_widens_evenSpec :
    (∀ part ∈ evenSpec.parts, ∀ part' ∈ evenSpec.parts, part = part') ∧
      Measured.Sound (some [0, 7]) ∧ (1 : Int) ≤ 6 ∧ (6 : Int) ≤ 11 ∧
      resolve evenSpec 6 (some [0, 7]) = .ok ⟨[0, 4, 0], 6⟩ ∧
      ∃ widths, resolve evenSpec 11 (some [0, 7]) = .ok widths ∧
        List.Forall₂ (· ≤ ·) [0, 4, 0] widths.widths := by
  have hequal : ∀ part ∈ evenSpec.parts, ∀ part' ∈ evenSpec.parts, part = part' := by decide
  have hmeasured : Measured.Sound (some [0, 7]) := by
    rintro _ ⟨rfl⟩
    decide
  have htotal : (1 : Int) ≤ 6 := by decide
  have hwider : (6 : Int) ≤ 11 := by decide
  have hresolve : resolve evenSpec 6 (some [0, 7]) = .ok ⟨[0, 4, 0], 6⟩ := by
    rw [resolve_of_wide (List.cons_ne_nil _ _) htotal (unmeasured?_eq_none_iff.mp rfl) (by decide),
      distribute_of_shares (by decide) (by decide)]
    rfl
  exact ⟨hequal, hmeasured, htotal, hwider, hresolve,
    resolve_widens hequal hmeasured htotal hwider hresolve⟩

end Widths

end TextGrid
