import TextGrid.Proofs.WidthBudget

/-!
# Fair shares

Cells that columns share are given out in whole units for each part, and those left over are dealt
out one at a time, round after round. However many rounds there are, each share has a closed form
(`resolve_fairShares`): all columns get equally many of the cells left over, and the first ones one
cell more.
-/

namespace TextGrid

/-- A demand that is a share asks for some parts. -/
theorem Demand.eq_share_of_isShare {demand : Demand} (h : demand.isShare = true) :
    ∃ parts, demand = share parts := by
  cases demand with
  | share parts => exact ⟨parts, rfl⟩
  | content width | fixed width | flexible least wanted => cases h

namespace Widths

open Demand

/-! ### Dealing out -/

/-- One cell more goes to each of the first positions. -/
theorem topUp_eq (count : Nat) (widths : List Int) :
    topUp count widths = widths.mapIdx fun position width =>
      width + if position < count then 1 else 0 := by
  induction widths generalizing count with
  | nil => cases count <;> rfl
  | cons width later ih =>
    cases count with
    | zero => simp [topUp, List.mapIdx_eq_zipIdx_map]
    | succ count => simp [topUp, ih, List.mapIdx_cons]

/-- Every width gets a cell in each complete round, and the first widths get one more in the last
round. -/
theorem deal_eq (count : Nat) {widths : List Int} (h : widths ≠ []) :
    deal count widths = widths.mapIdx fun position (width : Int) =>
      width + ((count / widths.length : Nat) : Int) +
        if position < count % widths.length then 1 else 0 := by
  fun_induction deal count widths with
  | case1 count widths hstop =>
    have hcount : count ≤ widths.length := hstop.resolve_right h
    rw [topUp_eq, List.mapIdx_eq_mapIdx_iff]
    intro position hposition
    rcases Nat.lt_or_eq_of_le hcount with hless | hequal
    · rw [Nat.div_eq_of_lt hless, Nat.mod_eq_of_lt hless]
      omega
    · rw [hequal, Nat.div_self (by omega), Nat.mod_self, if_pos hposition]
      simp
  | case2 count widths hstop ih =>
    have hlength : 0 < widths.length := List.length_pos_iff.mpr h
    have hcount : widths.length ≤ count := by
      by_contra hless
      exact hstop (.inl (by omega))
    have hround : topUp widths.length widths ≠ [] := by
      rwa [ne_eq, ← List.length_eq_zero_iff, length_topUp, List.length_eq_zero_iff]
    rw [ih hround, length_topUp, topUp_eq, List.mapIdx_mapIdx, List.mapIdx_eq_mapIdx_iff]
    intro position hposition
    rw [Function.comp_apply, if_pos hposition, Nat.mod_eq_sub_mod hcount,
      Nat.div_eq_sub_div hlength hcount]
    omega

/-- Shares of some cells in closed form: whole units for each part, equally many of the cells left
over for each column, and one cell more for the first columns. -/
def fairShares (room : Int) (parts : List Int) : List Int :=
  let left := room % sumInt parts
  parts.mapIdx fun position part => room / sumInt parts * part + left / parts.length +
    if (position : Int) < left % parts.length then 1 else 0

/-- Dealing out the cells left over comes to the closed form. -/
theorem shares_eq_fairShares (room : Int) {parts : List Int} (hparts : parts ≠ [])
    (hpositive : 0 < sumInt parts) : shares room parts = fairShares room parts := by
  have hleft : room - room / sumInt parts * sumInt parts = room % sumInt parts := by
    have := Int.ediv_mul_add_emod room (sumInt parts)
    omega
  have hnonneg : 0 ≤ room % sumInt parts := Int.emod_nonneg room (by omega)
  obtain ⟨left, hnat⟩ := Int.eq_ofNat_of_zero_le hnonneg
  simp only [shares, fairShares, hleft, hnat, Int.toNat_natCast]
  rw [deal_eq left (by simpa using hparts)]
  refine List.ext_getElem (by simp) fun position _ _ => ?_
  simp only [List.getElem_mapIdx, List.getElem_map, List.length_map, ← Int.natCast_ediv,
    ← Int.natCast_emod, Int.ofNat_lt]

/-- Shares of nothing are nothing. -/
theorem eq_zero_of_mem_fairShares {parts : List Int} {width : Int}
    (h : width ∈ fairShares 0 parts) : width = 0 := by
  obtain ⟨position, _, rfl⟩ := List.mem_mapIdx.mp h
  have hposition : ¬(position : Int) < 0 := by omega
  simp [hposition]

/-- A column with at least as many parts as another gets at most one cell less. -/
theorem fairShares_le {room : Int} (hroom : 0 ≤ room) {parts : List Int}
    (hpositive : 0 < sumInt parts) {first second : Nat} {part part' width width' : Int}
    (hpart : parts[first]? = some part) (hpart' : parts[second]? = some part')
    (hwidth : (fairShares room parts)[first]? = some width)
    (hwidth' : (fairShares room parts)[second]? = some width') (hle : part ≤ part') :
    width ≤ width' + 1 := by
  simp only [fairShares, List.getElem?_mapIdx, hpart, Option.map_some, Option.some.injEq] at hwidth
  simp only [fairShares, List.getElem?_mapIdx, hpart', Option.map_some, Option.some.injEq]
    at hwidth'
  have hunits : room / sumInt parts * part ≤ room / sumInt parts * part' :=
    Int.mul_le_mul_of_nonneg_left hle (Int.ediv_nonneg hroom (by omega))
  split at hwidth <;> split at hwidth' <;> omega

/-! ### Shares among the widths -/

/-- Shares are put into the places of the demands for them, and all other widths stay. -/
theorem zip_place {demands : List Demand} {widths shares : List Int}
    (hwidths : widths.length = demands.length)
    (hshares : shares.length = (demands.filter isShare).length) :
    ((demands.zip (place demands widths shares)).filter (·.1.isShare)).map (·.2) = shares ∧
      (demands.zip (place demands widths shares)).filter (!·.1.isShare) =
        (demands.zip widths).filter (!·.1.isShare) := by
  induction demands generalizing widths shares with
  | nil =>
    obtain rfl : shares = [] := by simpa using hshares
    simp
  | cons demand later ih =>
    obtain ⟨width, widths, rfl⟩ := List.exists_cons_of_length_eq_add_one hwidths
    have hlength : widths.length = later.length := by simpa using hwidths
    cases hshare : demand.isShare with
    | true =>
      obtain ⟨parts, rfl⟩ := eq_share_of_isShare hshare
      obtain ⟨first, shares, rfl⟩ : ∃ first rest, shares = first :: rest := by
        apply List.exists_cons_of_length_pos
        simp [hshares, hshare]
      have hcount : shares.length = (later.filter isShare).length := by
        simpa [hshare] using hshares
      obtain ⟨htaken, hkept⟩ := ih hlength hcount
      simp [place, hshare, htaken, hkept]
    | false =>
      have hcount : shares.length = (later.filter isShare).length := by
        simpa [hshare] using hshares
      obtain ⟨htaken, hkept⟩ := ih hlength hcount
      have hplace : place (demand :: later) (width :: widths) shares =
          width :: place later widths shares := by
        cases demand with
        | share parts => cases hshare
        | content wanted | fixed wanted | flexible least wanted => rfl
      simp [hplace, hshare, htaken, hkept]

/-- Nothing goes to shares when width is given back. -/
theorem sumInt_giveBack_unshared (excess : Int) (demands : List Demand) :
    sumInt (((demands.zip (giveBack excess demands).1).filter (!·.1.isShare)).map (·.2)) =
      sumInt (giveBack excess demands).1 := by
  induction demands with
  | nil => rfl
  | cons demand later ih =>
    cases hshare : demand.isShare with
    | true =>
      obtain ⟨parts, rfl⟩ := eq_share_of_isShare hshare
      simpa [giveBack, hshare, wanted, given] using ih
    | false => simp [giveBack, hshare, ih]

/-- Where there are shares, they divide the room that is left after giving back. -/
theorem distribute_of_shares {demands : List Demand}
    (hsome : (demands.filter isShare).map parts ≠ [])
    (hparts : ∀ part ∈ (demands.filter isShare).map parts, 1 ≤ part) (room : Int) :
    distribute room demands =
      let widths := (giveBack (sumInt (demands.map wanted) - room) demands).1
      place demands widths
        (fairShares (max (room - sumInt widths) 0) ((demands.filter isShare).map parts)) := by
  simp only [distribute, List.isEmpty_eq_false_iff.mpr hsome, Bool.false_eq_true, if_false,
    shares_eq_fairShares _ hsome (sumInt_pos hsome hparts)]

/-- The widths that are no shares are those that are left after giving back. -/
theorem unshared_distribute (room : Int) (demands : List Demand) :
    (demands.zip (distribute room demands)).filter (!·.1.isShare) =
      (demands.zip (giveBack (sumInt (demands.map wanted) - room) demands).1).filter
        (!·.1.isShare) := by
  simp only [distribute]
  split
  · rfl
  · exact (zip_place (length_giveBack _ demands) (by simp)).2

/-- The shares of all widths in closed form: they divide the room that the other widths leave. -/
theorem shared_distribute {demands : List Demand}
    (hparts : ∀ part ∈ (demands.filter isShare).map parts, 1 ≤ part) (room : Int) :
    ((demands.zip (distribute room demands)).filter (·.1.isShare)).map (·.2) =
      fairShares (max (room - sumInt (((demands.zip (distribute room demands)).filter
        (!·.1.isShare)).map (·.2))) 0) ((demands.filter isShare).map parts) := by
  rw [unshared_distribute, sumInt_giveBack_unshared]
  by_cases hnone : (demands.filter isShare).map parts = []
  · have hshares : (demands.zip (distribute room demands)).filter (·.1.isShare) = [] := by
      rw [List.filter_eq_nil_iff]
      rintro ⟨demand, width⟩ hpair hshare
      have hmem : demand ∈ demands.filter isShare :=
        List.mem_filter.mpr ⟨(List.of_mem_zip hpair).1, hshare⟩
      rw [List.map_eq_nil_iff.mp hnone] at hmem
      cases hmem
    rw [hshares, hnone]
    rfl
  · rw [distribute_of_shares hnone hparts]
    exact (zip_place (length_giveBack _ demands) (by simp [fairShares])).1

end Widths

/-! ### Columns and their widths -/

/-- A column with the width that was measured for it and the width that it got. -/
structure Allotment where
  column : Column
  measured : Option Int
  width : Int

namespace Allotment

/-- What the column asked for. -/
def demand (allotment : Allotment) : Demand :=
  Demand.ofColumn allotment.column allotment.measured

/-- Whether the column takes a share. -/
def isShare (allotment : Allotment) : Bool :=
  allotment.column.isProportional

/-- The parts that the column takes; a column without a share takes none. -/
def parts (allotment : Allotment) : Int :=
  allotment.column.width.parts?.getD 0

/-- A column takes a share exactly if its demand is one. -/
theorem isShare_demand (allotment : Allotment) :
    allotment.demand.isShare = allotment.isShare :=
  (Demand.ofColumn_cells allotment.column allotment.measured).2.2.2

end Allotment

/-- The columns of a spec with the widths that they got. -/
def Widths.allotments (widths : Widths) (spec : Spec) (measured : Measured) : List Allotment :=
  (spec.columns.zipIdx.zip widths.widths).map fun entry =>
    ⟨entry.1.1, measured.at? entry.1.2, entry.2⟩

/-- The parts of the columns that take shares, in order. -/
def Spec.parts (spec : Spec) : List Int :=
  spec.columns.filterMap (·.width.parts?)

/-- A column that takes a share has at least one part. -/
theorem Column.one_le_parts (column : Column) {parts : Int}
    (h : column.width.parts? = some parts) : 1 ≤ parts := by
  have hfault := column.faults_eq_none.1
  cases hwidth : column.width with
  | fixed width | bounded least most => simp [hwidth, WidthRule.parts?] at h
  | fill => simp_all [WidthRule.parts?]
  | fraction count =>
    simp only [ColumnLayout.widthFault?, hwidth] at hfault
    obtain rfl : count = parts := by simpa [hwidth, WidthRule.parts?] using h
    split at hfault
    · cases hfault
    · omega

/-- Every share of a spec has at least one part. -/
theorem Spec.parts_pos (spec : Spec) : ∀ part ∈ spec.parts, 1 ≤ part := by
  intro part hpart
  obtain ⟨column, _, hparts⟩ := List.mem_filterMap.mp hpart
  exact column.one_le_parts hparts

/-- The parts of a column are those of its demand. -/
theorem Demand.parts?_ofColumn (column : Column) (measured : Option Int) :
    column.width.parts? =
      if (ofColumn column measured).isShare then some (ofColumn column measured).parts
      else none := by
  by_cases hexpand : column.isExpand = true
  · have hshare := column.not_isProportional_of_isExpand hexpand
    simpa [ofColumn, hexpand, isShare, ColumnLayout.isProportional] using hshare
  · cases hwidth : column.width <;>
      simp [ofColumn, hexpand, hwidth, isShare, parts, WidthRule.parts?]

/-- The demands of a spec for shares have its parts, in order. -/
theorem Demand.parts_ofSpec (spec : Spec) (measured : Measured) :
    ((ofSpec spec measured).filter isShare).map parts = spec.parts := by
  unfold ofSpec Spec.parts
  generalize 0 = start
  induction spec.columns generalizing start with
  | nil => rfl
  | cons column columns ih =>
    rw [List.filterMap_cons, Demand.parts?_ofColumn column (measured.at? start), List.zipIdx_cons,
      List.map_cons, List.filter_cons]
    cases hshare : (ofColumn column (measured.at? start)).isShare with
    | true => simp [ih]
    | false => simp [ih]

namespace Widths

variable {spec : Spec} {total : Int} {measured : Measured} {widths : Widths}

/-- The demands of allotments, with their widths, are those of the spec. -/
theorem map_allotments (widths : Widths) (spec : Spec) (measured : Measured) :
    (widths.allotments spec measured).map (fun allotment => (allotment.demand, allotment.width)) =
      (Demand.ofSpec spec measured).zip widths.widths := by
  rw [allotments, Demand.ofSpec, List.map_map, List.zip_map_left]
  rfl

/-- The widths of the columns with shares, and of the others, are those of their demands. -/
theorem allotments_widths (widths : Widths) (spec : Spec) (measured : Measured) :
    ((widths.allotments spec measured).filter (·.isShare)).map (·.width) =
        (((Demand.ofSpec spec measured).zip widths.widths).filter (·.1.isShare)).map (·.2) ∧
      ((widths.allotments spec measured).filter (!·.isShare)).map (·.width) =
        (((Demand.ofSpec spec measured).zip widths.widths).filter (!·.1.isShare)).map (·.2) := by
  simp only [← map_allotments, List.filter_map, List.map_map, Function.comp_def,
    Allotment.isShare_demand, and_self]

/-- Every column is allotted a width, if there are as many widths as columns. -/
theorem map_column_allotments (hlength : widths.length = spec.columns.length) :
    (widths.allotments spec measured).map (·.column) = spec.columns := by
  have hzip : (spec.columns.zipIdx.zip widths.widths).map Prod.fst = spec.columns.zipIdx :=
    List.map_fst_zip (by simpa [Widths.length] using Nat.le_of_eq hlength.symm)
  calc (widths.allotments spec measured).map (·.column)
      = ((spec.columns.zipIdx.zip widths.widths).map Prod.fst).map Prod.fst := by
        simp [allotments]
    _ = spec.columns := by rw [hzip, List.zipIdx_map_fst]

/-- The columns with shares have the parts of the spec, in order. -/
theorem map_parts_allotments (hlength : widths.length = spec.columns.length) :
    ((widths.allotments spec measured).filter (·.isShare)).map (·.parts) = spec.parts := by
  have hcolumns : (widths.allotments spec measured).map (·.column) = spec.columns :=
    map_column_allotments hlength
  rw [Spec.parts, ← hcolumns, List.filterMap_map]
  induction widths.allotments spec measured with
  | nil => rfl
  | cons allotment later ih =>
    cases hparts : allotment.column.width.parts? with
    | none =>
      simpa [Allotment.isShare, ColumnLayout.isProportional, hparts, List.filter_cons] using ih
    | some parts =>
      simpa [Allotment.isShare, Allotment.parts, ColumnLayout.isProportional, hparts,
        List.filter_cons] using ih

/-- **Fair shares.** Whenever widths are resolved, every column gets one, and the columns with
shares divide the room that the other columns and the decorations leave. Each gets whole units for
its parts and an equal number of the cells left over, and the first ones get one cell more. So the
shares fill the room, and a column with at least as many parts as another is at most one cell
narrower. -/
theorem resolve_fairShares (htotal : 1 ≤ total) (h : resolve spec total measured = .ok widths) :
    let shared := (widths.allotments spec measured).filter (·.isShare)
    let others := (widths.allotments spec measured).filter (!·.isShare)
    let room := max (total - spec.overhead - sumInt (others.map (·.width))) 0
    (widths.allotments spec measured).map (·.column) = spec.columns ∧
      shared.map (·.width) = fairShares room spec.parts ∧
      (spec.parts ≠ [] → sumInt (shared.map (·.width)) = room) ∧
      ∀ first ∈ shared, ∀ second ∈ shared, first.parts ≤ second.parts →
        first.width ≤ second.width + 1 := by
  intro shared others room
  have hwidths := eq_distribute_of_resolve htotal h
  have hlength : widths.length = spec.columns.length := length_of_resolve htotal h
  have hparts : shared.map (·.parts) = spec.parts := map_parts_allotments hlength
  have hclosed : shared.map (·.width) = fairShares room spec.parts := by
    obtain ⟨hshared, hothers⟩ := allotments_widths widths spec measured
    have hdemands := Demand.parts_ofSpec spec measured
    have hdistribute := shared_distribute (hdemands ▸ spec.parts_pos) (total - spec.overhead)
    have hrow := congrArg Widths.widths hwidths
    simp only [shared, room, others, hshared, hothers, hrow]
    rw [hdistribute, hdemands]
  refine ⟨map_column_allotments hlength, hclosed, fun hsome => ?_, ?_⟩
  · have hpositive := sumInt_pos hsome spec.parts_pos
    rw [hclosed, ← shares_eq_fairShares room hsome hpositive, sumInt_shares hsome hpositive]
  · intro first hfirst second hsecond hle
    obtain ⟨index, hindex⟩ := List.mem_iff_getElem?.mp hfirst
    obtain ⟨index', hindex'⟩ := List.mem_iff_getElem?.mp hsecond
    have hsome : spec.parts ≠ [] := by
      rw [← hparts, ne_eq, List.map_eq_nil_iff]
      exact List.ne_nil_of_mem hfirst
    have hroom : 0 ≤ room := Int.le_max_right _ _
    refine fairShares_le hroom (sumInt_pos hsome spec.parts_pos) (?_ : spec.parts[index]? = _)
      (?_ : spec.parts[index']? = _) ?_ ?_ hle
    · rw [← hparts, List.getElem?_map, hindex, Option.map_some]
    · rw [← hparts, List.getElem?_map, hindex', Option.map_some]
    · rw [← hclosed, List.getElem?_map, hindex, Option.map_some]
    · rw [← hclosed, List.getElem?_map, hindex', Option.map_some]

/-- A fixed column beside three shares of unequal parts. -/
def unequalSpec : Spec where
  columns := [⟨{ width := .fraction 1 }, rfl⟩, ⟨{ width := .fixed 5 }, rfl⟩,
    ⟨{ width := .fraction 4 }, rfl⟩, ⟨{ width := .fraction 1 }, rfl⟩]
  decorations := {}
  sound := Decorations.fault?_default
  whole := rfl

/-- Twenty-three cells for six parts leave five cells over, which make a round for all three columns
and two cells of a second one. -/
theorem resolve_fairShares_unequalSpec :
    (1 : Int) ≤ 31 ∧ ∃ widths, resolve unequalSpec 31 none = .ok widths ∧
      ((widths.allotments unequalSpec none).filter (·.isShare)).map (·.width) = [5, 14, 4] := by
  have htotal : (1 : Int) ≤ 31 := by decide
  have hresolve : resolve unequalSpec 31 none = .ok ⟨[5, 5, 14, 4], 31⟩ := by
    rw [resolve_of_wide (List.cons_ne_nil _ _) htotal (unmeasured?_eq_none_iff.mp rfl) (by decide),
      distribute_of_shares (by decide) (by decide)]
    rfl
  obtain ⟨_, hclosed, _, _⟩ := resolve_fairShares htotal hresolve
  exact ⟨htotal, _, hresolve, hclosed.trans (by decide)⟩

end Widths

end TextGrid
