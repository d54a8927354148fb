import TextGrid.Proofs.Distribution

/-!
# The width budget of a row

A column counts towards the width of a row in one of four ways: by a fixed width, by the bounds that
its natural width is brought between, by its whole content, or not at all if it takes a share of
what is left over. The sums of these over a spec fix when widths can be resolved and what they add
up to (`resolve_budget`).
-/

namespace TextGrid

namespace Column

/-- The fixed width of a column that keeps to one. -/
def fixedCells (column : Column) : Int :=
  if column.isExpand then 0
  else match column.width with
    | .fixed width => width
    | _ => 0

/-- The least width of a bounded column. -/
def leastCells (column : Column) : Int :=
  if column.isExpand then 0
  else match column.width with
    | .bounded least _ => WidthRule.lowerCells least
    | _ => 0

/-- The natural width of a bounded column, brought between its bounds. What was not measured counts
as the upper bound, or as the lower one if there is no other. -/
def naturalCells (column : Column) (measured : Option Int) : Int :=
  if column.isExpand then 0
  else match column.width with
    | .bounded least most =>
      let lower := WidthRule.lowerCells least
      match WidthRule.upperCells? least most with
      | none => max (measured.getD lower) lower
      | some upper => min (max (measured.getD upper) lower) upper
    | _ => 0

/-- The width of the content of a column that keeps it whole. -/
def contentCells (column : Column) (measured : Option Int) : Int :=
  if column.isExpand then measured.getD 0 else 0

/-- The width rule and the overflow rule of a column have no fault. -/
theorem faults_eq_none (column : Column) :
    column.widthFault? = none ∧ column.overflowFault? = none := by
  have h := column.sound
  simp only [ColumnLayout.fault?, Option.orElse_eq_orElse, Option.orElse_eq_or,
    Option.or_eq_none_iff] at h
  exact ⟨h.1, h.2.1⟩

end Column

/-- A number that denotes a fraction lies at it. -/
theorem Value.place?_of_fraction? {value : Value} {fraction : Int × Nat}
    (h : value.fraction? = some fraction) :
    value.place? = some (0, fraction.1, fraction.2) := by
  fun_induction Value.place? value with
  | case1 negative => simp [Value.fraction?, Binary64.fraction?] at h
  | case2 base _ ih => exact ih h
  | case3 value => simp [h]

/-- A number that is not below zero has no whole cells below zero. -/
theorem lowerCells_nonneg_of_less? {least : Value} (h : least.less? (.int 0) = some false) :
    0 ≤ WidthRule.lowerCells least := by
  unfold WidthRule.lowerCells Value.floor?
  cases hfraction : least.fraction? with
  | none => simp
  | some fraction =>
    obtain ⟨numerator, denominator⟩ := fraction
    have hplace := Value.place?_of_fraction? hfraction
    have hzero : (Value.int 0).place? = some (0, 0, 1) := rfl
    have hnumerator : 0 ≤ numerator := by
      simp only [Value.less?, hplace, hzero] at h
      split at h
      · simpa using h
      · exact absurd h (by simp)
    exact Int.ediv_nonneg hnumerator (Int.natCast_nonneg denominator)

/-- An upper bound is never below the lower one. -/
theorem lowerCells_le_upperCells? {least most : Value} {upper : Int}
    (h : WidthRule.upperCells? least most = some upper) : WidthRule.lowerCells least ≤ upper := by
  obtain ⟨cells, _, rfl⟩ := Option.map_eq_some_iff.mp h
  omega

namespace Column

/-- A sound column has bounds that are not below zero. -/
theorem lowerCells_nonneg (column : Column) {least most : Value}
    (h : column.width = .bounded least most) : 0 ≤ WidthRule.lowerCells least := by
  apply lowerCells_nonneg_of_less?
  have hfault := column.faults_eq_none.1
  simp only [ColumnLayout.widthFault?, h, ColumnLayout.boundsFault?] at hfault
  split at hfault <;> simp_all

/-- A column that keeps its content whole takes no share. -/
theorem not_isProportional_of_isExpand (column : Column) (h : column.isExpand = true) :
    column.isProportional = false := by
  have hfault := column.faults_eq_none.2
  simp only [ColumnLayout.overflowFault?] at hfault
  unfold ColumnLayout.isExpand Overflow.isExpand at h
  split at hfault <;> simp_all

end Column

namespace Demand

/-- What a sound column asks for is sound, if its content is not measured below zero. -/
theorem sound_ofColumn (column : Column) {measured : Option Int}
    (h : ∀ width, measured = some width → 0 ≤ width) : (ofColumn column measured).Sound := by
  have hcontent : 0 ≤ measured.getD 0 := by
    cases measured with
    | none => simp
    | some width => simpa using h width rfl
  have hfault := column.faults_eq_none.1
  unfold ofColumn
  split
  · exact hcontent
  · cases hwidth : column.width with
    | fixed width =>
      simp only [ColumnLayout.widthFault?, hwidth] at hfault
      simp only [Sound]
      split at hfault
      · exact absurd hfault (by simp)
      · omega
    | bounded least most =>
      have hlower := column.lowerCells_nonneg hwidth
      simp only [Sound, clamp]
      cases hupper : WidthRule.upperCells? least most with
      | none => simp only; omega
      | some upper =>
        have := lowerCells_le_upperCells? hupper
        simp only
        omega
    | fraction parts =>
      simp only [ColumnLayout.widthFault?, hwidth] at hfault
      simp only [Sound]
      split at hfault
      · exact absurd hfault (by simp)
      · omega
    | fill => simp [Sound]

/-- The ways in which a column counts towards the width of a row, read off its demand. -/
theorem ofColumn_cells (column : Column) (measured : Option Int) :
    (ofColumn column measured).wanted = column.fixedCells + column.naturalCells measured +
        column.contentCells measured ∧
      (ofColumn column measured).required = column.fixedCells + column.leastCells ∧
      (ofColumn column measured).spare = column.naturalCells measured - column.leastCells ∧
      (ofColumn column measured).isShare = column.isProportional := by
  by_cases hexpand : column.isExpand = true
  · have hshare := column.not_isProportional_of_isExpand hexpand
    simp [ofColumn, hexpand, hshare, wanted, required, spare, isShare, Column.fixedCells,
      Column.leastCells, Column.naturalCells, Column.contentCells]
  · cases hwidth : column.width with
    | bounded least most =>
      cases hupper : WidthRule.upperCells? least most <;>
      simp [ofColumn, hexpand, hwidth, hupper, clamp, wanted, required, spare, isShare,
        ColumnLayout.isProportional, WidthRule.parts?, Column.fixedCells, Column.leastCells,
        Column.naturalCells, Column.contentCells]
    | fixed width | fraction parts | fill =>
      simp [ofColumn, hexpand, hwidth, wanted, required, spare, isShare,
        ColumnLayout.isProportional, WidthRule.parts?, Column.fixedCells, Column.leastCells,
        Column.naturalCells, Column.contentCells]

end Demand

/-- A measurement in which no width is negative. -/
def Measured.Sound (measured : Measured) : Prop :=
  ∀ widths, measured = some widths → ∀ width ∈ widths, 0 ≤ width

/-- No column measures a negative width. -/
theorem Measured.Sound.at? {measured : Measured} (h : measured.Sound) (position : Nat) :
    ∀ width, measured.at? position = some width → 0 ≤ width := by
  intro width hwidth
  obtain ⟨widths, hwidths, hposition⟩ := Option.bind_eq_some_iff.mp hwidth
  exact h widths hwidths width (List.mem_of_getElem? hposition)

namespace Spec

/-- Fixed widths together. -/
def fixedCells (spec : Spec) : Int :=
  sumInt (spec.columns.map Column.fixedCells)

/-- Least widths of the bounded columns together. -/
def leastCells (spec : Spec) : Int :=
  sumInt (spec.columns.map Column.leastCells)

/-- Natural widths of the bounded columns together, each between its bounds. -/
def naturalCells (spec : Spec) (measured : Measured) : Int :=
  sumInt (spec.columns.zipIdx.map fun (column, index) => column.naturalCells (measured.at? index))

/-- Widths of the content that is kept whole together. -/
def contentCells (spec : Spec) (measured : Measured) : Int :=
  sumInt (spec.columns.zipIdx.map fun (column, index) => column.contentCells (measured.at? index))

/-- Whether content that is kept whole stands beside shares without having been measured. -/
def LacksMeasure (spec : Spec) (measured : Measured) : Prop :=
  (∃ column ∈ spec.columns, column.isProportional = true) ∧
    ∃ index column, spec.columns[index]? = some column ∧ column.isExpand = true ∧
      measured.at? index = none

end Spec

namespace Demand

/-- Sums of what columns count for, taken over their demands. -/
theorem sumInt_ofSpec (spec : Spec) (measured : Measured) :
    sumInt ((ofSpec spec measured).map wanted) =
        spec.fixedCells + spec.naturalCells measured + spec.contentCells measured ∧
      sumInt ((ofSpec spec measured).map required) = spec.fixedCells + spec.leastCells ∧
      sumInt ((ofSpec spec measured).map spare) =
        spec.naturalCells measured - spec.leastCells := by
  unfold ofSpec Spec.fixedCells Spec.leastCells Spec.naturalCells Spec.contentCells
  -- The positions start at any number, so that the induction goes through.
  generalize 0 = start
  induction spec.columns generalizing start with
  | nil => simp
  | cons column columns ih =>
    obtain ⟨hwanted, hrequired, hspare⟩ := ih (start + 1)
    obtain ⟨hcolumn, hcolumn', hcolumn'', _⟩ := ofColumn_cells column (measured.at? start)
    simp only [List.zipIdx_cons, List.map_cons, sumInt_cons, hwanted, hrequired, hspare, hcolumn,
      hcolumn', hcolumn'']
    omega

/-- A demand of a spec is that of one of its columns. -/
theorem exists_of_mem_ofSpec {spec : Spec} {measured : Measured} {demand : Demand}
    (h : demand ∈ ofSpec spec measured) :
    ∃ index column, spec.columns[index]? = some column ∧
      demand = ofColumn column (measured.at? index) := by
  obtain ⟨⟨column, index⟩, hmem, rfl⟩ := List.mem_map.mp h
  exact ⟨index, column, by simpa [List.mem_zipIdx_iff_getElem?] using hmem, rfl⟩

/-- What the columns of a spec ask for is sound. -/
theorem sound_ofSpec {spec : Spec} {measured : Measured} (h : measured.Sound) :
    ∀ demand ∈ ofSpec spec measured, demand.Sound := by
  intro demand hdemand
  obtain ⟨index, column, _, rfl⟩ := exists_of_mem_ofSpec hdemand
  exact sound_ofColumn column (h.at? index)

/-- A spec asks for a share exactly if one of its columns takes one. -/
theorem any_isShare_ofSpec (spec : Spec) (measured : Measured) :
    (ofSpec spec measured).any isShare = spec.columns.any (·.isProportional) := by
  unfold ofSpec
  generalize 0 = start
  induction spec.columns generalizing start with
  | nil => rfl
  | cons column columns ih =>
    have hcolumn := (ofColumn_cells column (measured.at? start)).2.2.2
    simp only [List.zipIdx_cons, List.map_cons, List.any_cons, ih, hcolumn]

end Demand

namespace Widths

/-- A column is found unmeasured exactly if the spec lacks a measure. -/
theorem unmeasured?_eq_none_iff {spec : Spec} {measured : Measured} :
    unmeasured? spec measured = none ↔ ¬spec.LacksMeasure measured := by
  unfold unmeasured? Spec.LacksMeasure
  split
  · next hshare =>
    simp only [Option.map_eq_none_iff, List.find?_eq_none, Prod.forall,
      List.mem_zipIdx_iff_getElem?, Bool.and_eq_true, Option.isNone_iff_eq_none]
    simp only [List.any_eq_true] at hshare
    simp only [hshare, true_and, not_exists, not_and]
    exact ⟨fun h index column => h column index, fun h column index => h index column⟩
  · next hshare =>
    simp only [List.any_eq_true, not_exists, not_and] at hshare
    simp only [true_iff, not_and]
    intro ⟨column, hcolumn, hproportional⟩
    exact absurd hproportional (hshare column hcolumn)

/-! ### The outcomes of resolving -/

variable {spec : Spec} {total : Int} {measured : Measured}

/-- Where a measure is lacking, widths are not resolved. -/
theorem resolve_of_lacksMeasure (hcolumns : spec.columns ≠ []) (htotal : 1 ≤ total)
    (h : spec.LacksMeasure measured) :
    ∃ index, resolve spec total measured = .error (.definition (.unmeasured index)) := by
  have hdraws : ¬(spec.columns = [] ∨ total ≤ 0) := not_or.mpr ⟨hcolumns, by omega⟩
  cases hfound : unmeasured? spec measured with
  | none => exact absurd h (unmeasured?_eq_none_iff.mp hfound)
  | some index => exact ⟨index, by simp [resolve, hdraws, hfound]⟩

/-- Where fixed and least widths exceed the total, widths are not resolved. -/
theorem resolve_of_narrow (hcolumns : spec.columns ≠ []) (htotal : 1 ≤ total)
    (hmeasure : ¬spec.LacksMeasure measured) (h : total < spec.fixedCells + spec.leastCells) :
    resolve spec total measured =
      .error (.insufficientWidth (spec.fixedCells + spec.leastCells) total) := by
  have hdraws : ¬(spec.columns = [] ∨ total ≤ 0) := not_or.mpr ⟨hcolumns, by omega⟩
  have hrequired := (Demand.sumInt_ofSpec spec measured).2.1
  simp [resolve, hdraws, unmeasured?_eq_none_iff.mpr hmeasure, hrequired, h]

/-- Otherwise the room beside the decorations is distributed. -/
theorem resolve_of_wide (hcolumns : spec.columns ≠ []) (htotal : 1 ≤ total)
    (hmeasure : ¬spec.LacksMeasure measured) (h : spec.fixedCells + spec.leastCells ≤ total) :
    resolve spec total measured =
      .ok ⟨distribute (total - spec.overhead) (Demand.ofSpec spec measured), total⟩ := by
  have hdraws : ¬(spec.columns = [] ∨ total ≤ 0) := not_or.mpr ⟨hcolumns, by omega⟩
  have hrequired := (Demand.sumInt_ofSpec spec measured).2.1
  have hwide : ¬total < spec.fixedCells + spec.leastCells := by omega
  simp [resolve, hdraws, unmeasured?_eq_none_iff.mpr hmeasure, hrequired, hwide]

/-- Widths are found exactly if no measure is lacking and the total width holds what is fixed or
least. -/
theorem exists_resolve_iff (htotal : 1 ≤ total) :
    (∃ widths, resolve spec total measured = .ok widths) ↔
      ¬spec.LacksMeasure measured ∧ spec.fixedCells + spec.leastCells ≤ total := by
  by_cases hcolumns : spec.columns = []
  · have hmeasure : ¬spec.LacksMeasure measured := by simp [Spec.LacksMeasure, hcolumns]
    have hwide : spec.fixedCells + spec.leastCells ≤ total := by
      simp only [Spec.fixedCells, Spec.leastCells, hcolumns, List.map_nil, sumInt_nil]
      omega
    exact iff_of_true ⟨_, if_pos (Or.inl hcolumns)⟩ ⟨hmeasure, hwide⟩
  · constructor
    · rintro ⟨widths, h⟩
      have hmeasure : ¬spec.LacksMeasure measured := by
        intro hlacks
        obtain ⟨index, hfault⟩ := resolve_of_lacksMeasure hcolumns htotal hlacks
        cases h.symm.trans hfault
      refine ⟨hmeasure, ?_⟩
      by_contra hnarrow
      cases h.symm.trans (resolve_of_narrow hcolumns htotal hmeasure (by omega))
    · rintro ⟨hmeasure, hwide⟩
      exact ⟨_, resolve_of_wide hcolumns htotal hmeasure hwide⟩

/-- What resolves at a positive total width has the widths that are given out for its demands. -/
theorem eq_distribute_of_resolve {widths : Widths} (htotal : 0 < total)
    (h : resolve spec total measured = .ok widths) :
    widths = ⟨distribute (total - spec.overhead) (Demand.ofSpec spec measured), total⟩ := by
  by_cases hcolumns : spec.columns = []
  · rw [resolve, if_pos (Or.inl hcolumns), Int.max_eq_left (Int.le_of_lt htotal)] at h
    rw [← Except.ok.inj h]
    simp [Demand.ofSpec, hcolumns, distribute, giveBack]
  · have hsome : ¬(spec.columns = [] ∨ total ≤ 0) := not_or.mpr ⟨hcolumns, by omega⟩
    rw [resolve, if_neg hsome] at h
    split at h
    · cases h
    · dsimp only at h
      split at h
      · cases h
      · exact (Except.ok.inj h).symm

/-- Every column gets a width. -/
theorem length_of_resolve {widths : Widths} (htotal : 0 < total)
    (h : resolve spec total measured = .ok widths) : widths.length = spec.columns.length := by
  rw [eq_distribute_of_resolve htotal h, Widths.length, length_distribute]
  simp [Demand.ofSpec]

/-- **The width budget.** For a spec with columns and a positive total width, resolving fails for
want of a measure exactly if content that is kept whole stands unmeasured beside shares. Otherwise
it fails for want of width exactly if fixed and least widths exceed the total width, and names both.
Otherwise every column gets a width that is not negative. With shares the row is as wide as the
total width, or as what cannot shrink if that is wider; without shares it is no wider than what the
columns want. -/
theorem resolve_budget (hcolumns : spec.columns ≠ []) (htotal : 1 ≤ total)
    (hmeasured : measured.Sound) :
    ((∃ fault, resolve spec total measured = .error (.definition fault)) ↔
        spec.LacksMeasure measured) ∧
      (¬spec.LacksMeasure measured →
        (resolve spec total measured =
            .error (.insufficientWidth (spec.fixedCells + spec.leastCells) total) ↔
          total < spec.fixedCells + spec.leastCells) ∧
        (¬total < spec.fixedCells + spec.leastCells →
          ∃ widths, resolve spec total measured = .ok widths ∧
            widths.length = spec.columns.length ∧ (∀ width ∈ widths.widths, 0 ≤ width) ∧
            widths.sum + spec.overhead =
              let firm := max total
                (spec.fixedCells + spec.contentCells measured + spec.leastCells + spec.overhead)
              if spec.columns.any (·.isProportional) then firm
              else min (spec.fixedCells + spec.contentCells measured +
                spec.naturalCells measured + spec.overhead) firm)) := by
  by_cases hlacks : spec.LacksMeasure measured
  · obtain ⟨index, hresolve⟩ := resolve_of_lacksMeasure hcolumns htotal hlacks
    exact ⟨iff_of_true ⟨_, hresolve⟩ hlacks, fun h => absurd hlacks h⟩
  by_cases hnarrow : total < spec.fixedCells + spec.leastCells
  · have hresolve := resolve_of_narrow hcolumns htotal hlacks hnarrow
    refine ⟨iff_of_false ?_ hlacks, fun _ => ⟨iff_of_true hresolve hnarrow, absurd hnarrow⟩⟩
    rintro ⟨fault, hfault⟩
    rw [hresolve] at hfault
    cases hfault
  have hresolve := resolve_of_wide hcolumns htotal hlacks (by omega)
  refine ⟨iff_of_false ?_ hlacks, fun _ => ⟨iff_of_false ?_ hnarrow, fun _ => ?_⟩⟩
  · rintro ⟨fault, hfault⟩
    rw [hresolve] at hfault
    cases hfault
  · rw [hresolve]
    exact fun h => nomatch h
  · have hsound : ∀ demand ∈ Demand.ofSpec spec measured, demand.Sound :=
      Demand.sound_ofSpec hmeasured
    obtain ⟨hwanted, _, hspare⟩ := Demand.sumInt_ofSpec spec measured
    refine ⟨_, hresolve, ?_, distribute_nonneg hsound _, ?_⟩
    · simp [Widths.length, length_distribute, Demand.ofSpec]
    · simp only [Widths.sum, sumInt_distribute hsound, Demand.any_isShare_ofSpec, hwanted, hspare]
      split <;> omega

/-- A column of each kind: fixed, bounded, whole content and two shares. -/
def mixedSpec : Spec where
  columns := [⟨{ width := .fixed 4 }, rfl⟩, ⟨{ width := .bounded (.int 2) (.int 6) }, rfl⟩,
    ⟨{ width := .bounded (.int 0) .null, overflow := .expand }, rfl⟩, ⟨{ width := .fill }, rfl⟩,
    ⟨{ width := .fraction 2 }, rfl⟩]
  decorations := {}
  sound := Decorations.fault?_default
  whole := rfl

/-- Twelve cells hold what is fixed or least, but not the whole content beside it: the bounded
column shrinks, the shares get nothing, and the row is fifteen cells wide. -/
theorem resolve_mixedSpec_twelve :
    mixedSpec.columns ≠ [] ∧ (1 : Int) ≤ 12 ∧ Measured.Sound (some [1, 9, 5]) ∧
      ∃ widths, resolve mixedSpec 12 (some [1, 9, 5]) = .ok widths ∧
        widths.sum + mixedSpec.overhead = 15 := by
  have hcolumns : mixedSpec.columns ≠ [] := by simp [mixedSpec]
  have hmeasured : Measured.Sound (some [1, 9, 5]) := by
    rintro _ ⟨rfl⟩
    decide
  have hmeasure : ¬mixedSpec.LacksMeasure (some [1, 9, 5]) :=
    unmeasured?_eq_none_iff.mp (by decide)
  have htotal : (1 : Int) ≤ 12 := by decide
  obtain ⟨_, hbudget⟩ := resolve_budget hcolumns htotal hmeasured
  obtain ⟨widths, hresolve, _, _, hsum⟩ := (hbudget hmeasure).2 (by decide)
  exact ⟨hcolumns, htotal, hmeasured, widths, hresolve, hsum.trans (by decide)⟩

end Widths

end TextGrid
