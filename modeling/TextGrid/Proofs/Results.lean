import Mathlib.Data.List.Forall2
import TextGrid.Error

/-!
# Results of layout steps

Layout steps give a result or an error. A step that goes on from a result goes on from the value in
it, and a step taken for every item of a list succeeds when it succeeds for each.
-/

namespace TextGrid

/-- Each item of the second list is related to one of the first. -/
theorem exists_mem_of_forall₂ {α β : Type} {R : α → β → Prop} {first : List α} {second : List β}
    (h : List.Forall₂ R first second) {item : β} (hitem : item ∈ second) :
    ∃ partner ∈ first, R partner item := by
  induction h with
  | nil => simp at hitem
  | @cons partner next first second hhead hrest ih =>
    rcases List.mem_cons.mp hitem with rfl | hmem
    · exact ⟨partner, by simp, hhead⟩
    · obtain ⟨other, hother, hrelated⟩ := ih hmem
      exact ⟨other, by simp [hother], hrelated⟩

section Bind

variable {ε α β : Type}

/-- A step goes on from a value. -/
@[simp] theorem ok_bind (value : α) (next : α → Except ε β) :
    (Except.ok value >>= next) = next value :=
  rfl

/-- No step goes on from an error. -/
@[simp] theorem error_bind (fault : ε) (next : α → Except ε β) :
    ((Except.error fault : Except ε α) >>= next) = Except.error fault :=
  rfl

/-- Two steps have a result exactly if both have one. -/
theorem bind_eq_ok_iff {first : Except ε α} {next : α → Except ε β} {result : β} :
    (first >>= next) = .ok result ↔ ∃ value, first = .ok value ∧ next value = .ok result := by
  cases first with
  | error fault => simp
  | ok value => simp

/-- Two results make a pair when both are there. -/
theorem pair_eq_ok_iff {first : Except ε α} {second : Except ε β} {pair : α × β} :
    (do return (← first, ← second)) = .ok pair ↔ first = .ok pair.1 ∧ second = .ok pair.2 := by
  obtain ⟨left, right⟩ := pair
  cases first <;> cases second <;> simp [pure, Except.pure]

/-- A result that is no error is the result of some value. -/
theorem exists_eq_ok {result : Except ε α} (h : result.toOption.isSome = true) :
    ∃ value, result = .ok value := by
  cases result with
  | error fault => cases h
  | ok value => exact ⟨value, rfl⟩

/-- What is known of the value in a result is known of the value that it is equal to. -/
theorem of_eq_ok {result : Except ε α} {kind : α → Prop} {value : α} (hvalue : result = .ok value)
    (h : ∃ found, result = .ok found ∧ kind found) : kind value := by
  obtain ⟨found, hfound, hkind⟩ := h
  obtain rfl : value = found := Except.ok.inj (hvalue.symm.trans hfound)
  exact hkind

/-- A step taken for every item succeeds when it succeeds for each item. -/
theorem mapM_eq_ok_iff {step : α → Except ε β} {items : List α} {results : List β} :
    items.mapM step = .ok results ↔
      List.Forall₂ (fun item result => step item = .ok result) items results := by
  induction items generalizing results with
  | nil => simp [List.mapM_nil, pure, Except.pure, eq_comm]
  | cons item later ih =>
    simp only [List.mapM_cons, bind_eq_ok_iff, ih, List.forall₂_cons_left_iff]
    constructor
    · rintro ⟨value, hvalue, values, hvalues, hresults⟩
      exact ⟨value, values, hvalue, hvalues, (Except.ok.inj hresults).symm⟩
    · rintro ⟨value, values, hvalue, hvalues, rfl⟩
      exact ⟨value, hvalue, values, hvalues, rfl⟩

/-- A step that leads from related items to related results does so item by item. -/
theorem exists_mapM_eq_ok {γ : Type} {step : α → Except ε β} {before : α → γ → Prop}
    {after : β → γ → Prop} {items : List α} {targets : List γ}
    (hitems : List.Forall₂ before items targets)
    (hstep : ∀ item target, before item target → ∃ result, step item = .ok result ∧
      after result target) :
    ∃ results, items.mapM step = .ok results ∧ List.Forall₂ after results targets := by
  induction hitems with
  | nil => exact ⟨[], rfl, .nil⟩
  | cons hitem hlater ih =>
    obtain ⟨result, hresult, hafter⟩ := hstep _ _ hitem
    obtain ⟨results, hresults, hafters⟩ := ih
    refine ⟨result :: results, ?_, .cons hafter hafters⟩
    rw [List.mapM_cons, hresult, ok_bind, hresults, ok_bind]
    rfl

/-- A step that gives results of one kind does so for every item. -/
theorem exists_mapM_forall_mem {step : α → Except ε β} {kind : β → Prop} {items : List α}
    (hstep : ∀ item ∈ items, ∃ result, step item = .ok result ∧ kind result) :
    ∃ results, items.mapM step = .ok results ∧ ∀ result ∈ results, kind result := by
  induction items with
  | nil => exact ⟨[], rfl, by simp⟩
  | cons item later ih =>
    obtain ⟨hitem, hlater⟩ := List.forall_mem_cons.mp hstep
    obtain ⟨result, hresult, hkind⟩ := hitem
    obtain ⟨results, hresults, hkinds⟩ := ih hlater
    refine ⟨result :: results, ?_, List.forall_mem_cons.mpr ⟨hkind, hkinds⟩⟩
    rw [List.mapM_cons, hresult, ok_bind, hresults, ok_bind]
    rfl

end Bind

/-- A markup result is kept as a layout result. -/
@[simp] theorem Markup.lift_ok {α : Type} (value : α) : Markup.lift (.ok value) = .ok value :=
  rfl

/-- A layout result is one exactly if the markup result is. -/
@[simp] theorem Markup.lift_eq_ok_iff {α : Type} {result : Except MarkupError α} {value : α} :
    Markup.lift result = .ok value ↔ result = .ok value := by
  cases result with
  | error fault => simp [Markup.lift, Except.mapError]
  | ok found => simp

end TextGrid
