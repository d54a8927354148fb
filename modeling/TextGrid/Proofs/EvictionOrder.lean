import TextGrid.Proofs.ValueEquality

/-!
# First in, first out

A width cache computes the answer to a question that it misses. Its entries are some of the computed
ones, in the order of computation, and one that is found again does not move. A cache that is only
asked holds the newest computed answers, as many as it has room for (`performAll_firstInFirstOut`).
-/

namespace TextGrid

namespace WidthCache

variable {cache : WidthCache} {query : WidthQuery} {entry : CacheEntry}

/-- The entry that a question adds, if no entry answers it and it has an answer. -/
def computes? (cache : WidthCache) (query : WidthQuery) : Option CacheEntry :=
  match cache.find? query, query.resolve with
  | none, .ok widths => some ⟨query, widths, cache.computed⟩
  | _, _ => none

/-- A question that is answered from the cache leaves it alone. -/
theorem ask_of_find? (h : cache.find? query = some entry) :
    cache.ask query = (.ok ⟨entry.widths, entry.serial⟩, cache) := by
  simp only [ask, h]

/-- A question that computes nothing leaves the cache alone. -/
theorem ask_of_computes?_eq_none (h : cache.computes? query = none) :
    (cache.ask query).2 = cache := by
  unfold ask
  unfold computes? at h
  cases hfound : cache.find? query with
  | some entry => rfl
  | none =>
    cases hresolve : query.resolve with
    | error e => rfl
    | ok widths => simp [hfound, hresolve] at h

/-- A computed answer is numbered and comes last, and old entries are evicted. -/
theorem ask_of_computes?_eq_some (h : cache.computes? query = some entry) :
    cache.find? query = none ∧ entry.query = query ∧ entry.serial = cache.computed ∧
      (cache.ask query).2 =
        ⟨cache.capacity, evict cache.capacity (cache.entries ++ [entry]), cache.computed + 1⟩ := by
  unfold ask
  unfold computes? at h
  cases hfound : cache.find? query with
  | some entry => simp [hfound] at h
  | none =>
    cases hresolve : query.resolve with
    | error e => simp [hfound, hresolve] at h
    | ok widths =>
      simp only [hfound, hresolve, Option.some.injEq] at h
      subst h
      refine ⟨rfl, rfl, rfl, ?_⟩
      by_cases hcapacity : cache.capacity < 0
      · simp only [if_pos hcapacity, insert]
      · simp only [if_neg hcapacity, insert]

/-- A question leaves the capacity as it is. -/
theorem capacity_ask (cache : WidthCache) (query : WidthQuery) :
    (cache.ask query).2.capacity = cache.capacity := by
  cases hcomputes : cache.computes? query with
  | none => rw [ask_of_computes?_eq_none hcomputes]
  | some entry => rw [(ask_of_computes?_eq_some hcomputes).2.2.2]

/-! ### Entries and computations -/

/-- A cache whose entries are some of the computed ones in the order of computation. No question was
computed while an entry answered it. -/
structure Logged (cache : WidthCache) (log : List CacheEntry) : Prop where
  ordered : cache.entries.Sublist log
  count : cache.computed = log.length
  numbered : log.map (·.serial) = List.range log.length
  unrepeated : log.Pairwise fun older newer =>
    older ∈ cache.entries → older.query.same newer.query = false

/-- An empty cache has computed nothing. -/
theorem logged_empty (capacity : Int) : (empty capacity).Logged [] where
  ordered := .refl _
  count := by simp [empty]
  numbered := by simp
  unrepeated := .nil

namespace Logged

variable {log : List CacheEntry}

/-- The entries in a cache are numbered below the count of those that were computed. -/
theorem serial_lt (h : cache.Logged log) (hentry : entry ∈ log) : entry.serial < log.length := by
  rw [← List.mem_range, ← h.numbered]
  exact List.mem_map_of_mem hentry

/-- A cache may lose entries. -/
theorem of_sublist (h : cache.Logged log) {kept : List CacheEntry}
    (hkept : kept.Sublist cache.entries) : Logged { cache with entries := kept } log where
  ordered := hkept.trans h.ordered
  count := h.count
  numbered := h.numbered
  unrepeated := h.unrepeated.imp fun hpair holder => hpair (hkept.subset holder)

/-- A cache may gain an entry that is computed last for a question that no entry answers. -/
theorem append (h : cache.Logged log) (hserial : entry.serial = cache.computed)
    (hmissed : cache.find? entry.query = none) :
    Logged ⟨cache.capacity, cache.entries ++ [entry], cache.computed + 1⟩ (log ++ [entry]) where
  ordered := h.ordered.append (.refl _)
  count := by simp [h.count]
  numbered := by
    rw [List.map_append, h.numbered, List.length_append, List.length_singleton, List.range_succ,
      List.map_singleton, hserial, h.count]
  unrepeated := by
    -- The new entry is none of the older ones, for it has another number.
    have hold : ∀ older ∈ log, older ∈ cache.entries ++ [entry] → older ∈ cache.entries := by
      intro older holder hmem
      rcases List.mem_append.mp hmem with hmem | hmem
      · exact hmem
      · obtain rfl := List.mem_singleton.mp hmem
        have := h.serial_lt holder
        have := h.count
        omega
    rw [List.pairwise_append]
    refine ⟨?_, List.pairwise_singleton _ _, ?_⟩
    · exact h.unrepeated.imp_of_mem fun holder _ hpair hmem => hpair (hold _ holder hmem)
    · intro older holder newer hnewer hmem
      obtain rfl := List.mem_singleton.mp hnewer
      simpa using List.find?_eq_none.mp hmissed older (hold older holder hmem)

/-- A question is logged if its answer is computed. -/
theorem ask (h : cache.Logged log) (query : WidthQuery) :
    (cache.ask query).2.Logged (log ++ (cache.computes? query).toList) := by
  cases hcomputes : cache.computes? query with
  | none =>
    rw [ask_of_computes?_eq_none hcomputes, Option.toList_none, List.append_nil]
    exact h
  | some entry =>
    obtain ⟨hmissed, hquery, hserial, hafter⟩ := ask_of_computes?_eq_some hcomputes
    rw [hafter, Option.toList_some]
    rw [← hquery] at hmissed
    exact (h.append hserial hmissed).of_sublist (List.drop_sublist _ _)

/-- An entry that is found was computed last of all that answer the question. -/
theorem find?_reverse (h : cache.Logged log) (hproper : ∀ entry ∈ log, entry.query.spec.IsProper)
    (hfound : cache.find? query = some entry) :
    log.reverse.find? (·.query.same query) = some entry := by
  have hsame := List.find?_some hfound
  have hmem : entry ∈ cache.entries := List.mem_of_find?_eq_some hfound
  obtain ⟨older, newer, hsplit⟩ := List.append_of_mem (h.ordered.subset hmem)
  have hunrepeated := h.unrepeated
  rw [hsplit] at hunrepeated hproper ⊢
  have hlater := (List.pairwise_cons.mp (List.pairwise_append.mp hunrepeated).2.1).1
  rw [List.find?_eq_some_iff_append]
  refine ⟨hsame, newer.reverse, older.reverse, by simp, fun next hnext => ?_⟩
  rw [List.mem_reverse] at hnext
  have hdifferent := hlater next hnext hmem
  cases hnextSame : next.query.same query with
  | false => rfl
  | true =>
    have hentry : entry.query.spec.IsProper := hproper entry (by simp)
    have hnextProper : next.query.spec.IsProper := hproper next (by simp [hnext])
    rw [WidthQuery.same_of_same hentry hnextProper hsame hnextSame] at hdifferent
    cases hdifferent

end Logged

end WidthCache

/-! ### Runs -/

/-- A step on a cache. -/
inductive CacheStep
  | ask (query : WidthQuery)
  | invalidate (spec : Spec)
  | clear

namespace CacheStep

open WidthCache (evict)

/-- The cache after a step. -/
def perform (cache : WidthCache) : CacheStep → WidthCache
  | ask query => (cache.ask query).2
  | invalidate spec => cache.invalidate spec
  | clear => cache.clear

/-- The entry that a step computes. -/
def computes? (cache : WidthCache) : CacheStep → Option CacheEntry
  | ask query => cache.computes? query
  | invalidate _ | clear => none

/-- The cache after several steps. -/
def performAll (cache : WidthCache) (steps : List CacheStep) : WidthCache :=
  steps.foldl perform cache

/-- The entries that several steps compute, one after another. -/
def computations (cache : WidthCache) : List CacheStep → List CacheEntry
  | [] => []
  | step :: later => (step.computes? cache).toList ++ computations (step.perform cache) later

variable {cache : WidthCache} {log : List CacheEntry}

/-- A step leaves the capacity as it is. -/
theorem capacity_perform (cache : WidthCache) (step : CacheStep) :
    (step.perform cache).capacity = cache.capacity := by
  cases step with
  | ask query => exact WidthCache.capacity_ask cache query
  | invalidate spec => rfl
  | clear => rfl

/-- A history leaves the capacity as it is. -/
theorem capacity_performAll (cache : WidthCache) (steps : List CacheStep) :
    (performAll cache steps).capacity = cache.capacity := by
  induction steps generalizing cache with
  | nil => rfl
  | cons step later ih => exact (ih (step.perform cache)).trans (capacity_perform cache step)

/-- Every step logs what it computes. -/
theorem logged_perform (h : cache.Logged log) (step : CacheStep) :
    (step.perform cache).Logged (log ++ (step.computes? cache).toList) := by
  cases step with
  | ask query => exact h.ask query
  | invalidate spec =>
    simp only [computes?, Option.toList_none, List.append_nil]
    exact h.of_sublist List.filter_sublist
  | clear =>
    simp only [computes?, Option.toList_none, List.append_nil]
    exact h.of_sublist (List.nil_sublist _)

/-- Every run logs what its steps compute. -/
theorem logged_performAll (h : cache.Logged log) (steps : List CacheStep) :
    (performAll cache steps).Logged (log ++ computations cache steps) := by
  induction steps generalizing cache log with
  | nil => simpa [performAll, computations] using h
  | cons step later ih =>
    have hlater := ih (logged_perform h step)
    simpa only [performAll, computations, List.foldl_cons, List.append_assoc] using hlater

/-- What a run computes are answers to questions that it asks. -/
theorem ask_mem_of_mem_computations {steps : List CacheStep} {entry : CacheEntry}
    (h : entry ∈ computations cache steps) : ask entry.query ∈ steps := by
  induction steps generalizing cache with
  | nil => simp [computations] at h
  | cons step later ih =>
    rcases List.mem_append.mp h with hhead | hlater
    · cases step with
      | ask query =>
        obtain ⟨-, rfl, -⟩ :=
          WidthCache.ask_of_computes?_eq_some (Option.mem_toList.mp hhead)
        exact List.mem_cons_self ..
      | invalidate spec => simp [computes?] at hhead
      | clear => simp [computes?] at hhead
    · exact List.mem_cons_of_mem _ (ih hlater)

/-! ### Stretches of questions -/

/-- Entries that are evicted early would be evicted later. -/
theorem evict_evict_append (capacity : Int) (entries newer : List CacheEntry) :
    evict capacity (evict capacity entries ++ newer) = evict capacity (entries ++ newer) := by
  simp only [evict, List.length_append, List.length_drop]
  generalize capacity.toNat = room
  by_cases hroom : entries.length ≤ room
  · rw [show entries.length - room = 0 by omega, List.drop_zero, Nat.sub_zero]
  · have hearly : entries.length - room ≤ entries.length := by omega
    rw [← List.drop_append_of_le_length hearly, List.drop_drop]
    congr 1
    omega

/-- A cache that holds the newest of some entries and is only asked holds the newest of them and the
computed ones. -/
theorem entries_performAll_ask {known : List CacheEntry}
    (h : cache.entries = evict cache.capacity known) (queries : List WidthQuery) :
    (performAll cache (queries.map ask)).entries =
      evict cache.capacity (known ++ computations cache (queries.map ask)) := by
  induction queries generalizing cache known with
  | nil => simpa [performAll, computations] using h
  | cons query later ih =>
    have hafter : (cache.ask query).2.entries = evict (cache.ask query).2.capacity
        (known ++ (cache.computes? query).toList) := by
      rw [WidthCache.capacity_ask]
      cases hcomputes : cache.computes? query with
      | none => simpa [WidthCache.ask_of_computes?_eq_none hcomputes] using h
      | some entry =>
        rw [(WidthCache.ask_of_computes?_eq_some hcomputes).2.2.2, h, evict_evict_append,
          Option.toList_some]
    have hlater := ih hafter
    rw [WidthCache.capacity_ask, List.append_assoc] at hlater
    exact hlater

/-- **First in, first out.** After any steps on a new cache, its entries are some of the computed
ones in the order of computation. To invalidate a spec takes out its entries only. A question that
an entry answers changes nothing, and that entry was computed last of all that answer it. If the
cache is empty and then only asked, it holds the newest of the answers computed since, as many as it
has room for, and these questions are the ones that it answers from its entries. -/
theorem performAll_firstInFirstOut (room : Nat) (steps : List CacheStep)
    (hproper : ∀ query, ask query ∈ steps → query.spec.IsProper) :
    let cache := performAll (.empty room) steps
    let computed := computations (.empty room) steps
    computed.map (·.serial) = List.range computed.length ∧ cache.entries.Sublist computed ∧
      (∀ spec, ((invalidate spec).perform cache).entries =
        cache.entries.filter fun entry => !entry.query.spec.same spec) ∧
      (∀ query entry, cache.find? query = some entry →
        cache.ask query = (.ok ⟨entry.widths, entry.serial⟩, cache) ∧
          computed.reverse.find? (·.query.same query) = some entry) ∧
      (cache.entries = [] → ∀ queries : List WidthQuery,
        let recent := computations cache (queries.map ask)
        let newest := recent.drop (recent.length - room)
        (performAll cache (queries.map ask)).entries = newest ∧
          ∀ query, ((performAll cache (queries.map ask)).find? query).isSome ↔
            ∃ entry ∈ newest, entry.query.same query = true) := by
  intro cache computed
  have hlogged : cache.Logged computed := by
    simpa using logged_performAll (WidthCache.logged_empty room) steps
  have hcomputed : ∀ entry ∈ computed, entry.query.spec.IsProper := fun entry hentry =>
    hproper entry.query (ask_mem_of_mem_computations hentry)
  refine ⟨hlogged.numbered, hlogged.ordered, fun spec => rfl, ?_, ?_⟩
  · intro query entry hfound
    exact ⟨WidthCache.ask_of_find? hfound, hlogged.find?_reverse hcomputed hfound⟩
  · intro hnone queries recent newest
    have hcapacity : cache.capacity = room := capacity_performAll (.empty room) steps
    have hentries : (performAll cache (queries.map ask)).entries = newest := by
      have hnewest : cache.entries = evict cache.capacity [] := by simp [hnone, evict]
      rw [entries_performAll_ask hnewest queries, hcapacity]
      simp [evict, newest, recent]
    refine ⟨hentries, fun query => ?_⟩
    rw [WidthCache.find?, hentries, List.find?_isSome]

/-- One column of one cell. -/
def oneCell : Spec where
  columns := [⟨{ width := .fixed 1 }, rfl⟩]
  decorations := {}
  sound := Decorations.fault?_default
  whole := rfl

/-- A spec of one fixed column is proper. -/
theorem oneCell_isProper : oneCell.IsProper := by
  intro column hcolumn
  obtain rfl := List.mem_singleton.mp hcolumn
  exact {
    key := .null
    name := .null
    header := .null
    width := trivial
    overflow := Value.Proper.text defaultMarker
    style := nofun }

/-- In a cache of two entries that was cleared, the question of a total width of five is evicted
although it was asked again. -/
theorem performAll_firstInFirstOut_askedAgain :
    let steps := [ask ⟨oneCell, 4, none⟩, clear]
    let queries := [⟨oneCell, 5, none⟩, ⟨oneCell, 7, none⟩, ⟨oneCell, 5, none⟩, ⟨oneCell, 9, none⟩]
    (∀ query, ask query ∈ steps → query.spec.IsProper) ∧
      (performAll (performAll (.empty 2) steps) (queries.map ask)).entries =
        [⟨⟨oneCell, 7, none⟩, ⟨[1], 7⟩, 2⟩, ⟨⟨oneCell, 9, none⟩, ⟨[1], 9⟩, 3⟩] := by
  intro steps queries
  have hproper : ∀ query, ask query ∈ steps → query.spec.IsProper := by
    intro query hquery
    simp only [steps, List.mem_cons, List.not_mem_nil, or_false, CacheStep.ask.injEq,
      reduceCtorEq] at hquery
    rw [hquery]
    exact oneCell_isProper
  obtain ⟨_, _, _, _, hstretch⟩ := performAll_firstInFirstOut 2 steps hproper
  exact ⟨hproper, (hstretch rfl queries).1.trans rfl⟩

end CacheStep

end TextGrid
