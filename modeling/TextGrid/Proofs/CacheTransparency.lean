import TextGrid.Proofs.EqualQuestions
import TextGrid.Table

/-!
# The width cache is transparent

A cache is coherent when no two entries answer one question, every entry holds the answer that would
be computed afresh, and the capacity is kept to. Every use of a cache keeps it coherent, and a
coherent cache answers as if everything were computed afresh (`performAll_transparent`).
-/

namespace TextGrid

namespace WidthCache

/-- A cache whose entries answer different questions, each as it would be answered afresh, and are
no more than the capacity allows. -/
structure Coherent (cache : WidthCache) : Prop where
  distinct : cache.entries.Pairwise fun older newer => older.query.same newer.query = false
  answers : ∀ entry ∈ cache.entries, entry.query.resolve = .ok entry.widths
  bounded : cache.length ≤ cache.capacity

/-- An empty cache of a capacity that is not negative is coherent. -/
theorem coherent_empty {capacity : Int} (h : 0 ≤ capacity) : (empty capacity).Coherent where
  distinct := .nil
  answers := by simp [empty]
  bounded := by simpa [empty, length] using h

variable {cache : WidthCache}

/-- A coherent cache has a capacity that is not negative. -/
theorem Coherent.capacity_nonneg (h : cache.Coherent) : 0 ≤ cache.capacity := by
  have hbounded := h.bounded
  unfold WidthCache.length at hbounded
  omega

/-- An entry that is found gives the answer to the question. -/
theorem Coherent.resolve_of_find? (h : cache.Coherent) {query : WidthQuery} {entry : CacheEntry}
    (hfound : cache.find? query = some entry) : query.resolve = .ok entry.widths := by
  have hsame := List.find?_some hfound
  rw [← WidthQuery.resolve_eq_of_same hsame]
  exact h.answers entry (List.mem_of_find?_eq_some hfound)

/-- After an eviction there are at most as many entries as the capacity allows. -/
theorem length_evict (capacity : Int) (entries : List CacheEntry) :
    (evict capacity entries).length ≤ capacity.toNat := by
  simp only [evict, List.length_drop]
  omega

/-- A computed answer to a question that no entry answers keeps a cache coherent. -/
theorem Coherent.insert (h : cache.Coherent) (hcapacity : 0 ≤ cache.capacity)
    {query : WidthQuery} {widths : Widths} (hmissed : cache.find? query = none)
    (hresolve : query.resolve = .ok widths) : (cache.insert query widths).Coherent where
  distinct := by
    refine List.Pairwise.sublist (List.drop_sublist _ _) ?_
    rw [List.pairwise_append]
    refine ⟨h.distinct, List.pairwise_singleton _ _, fun older holder newer hnewer => ?_⟩
    obtain rfl := List.mem_singleton.mp hnewer
    simpa using List.find?_eq_none.mp hmissed older holder
  answers := by
    intro entry hentry
    rcases List.mem_append.mp (List.mem_of_mem_drop hentry) with hold | hnew
    · exact h.answers entry hold
    · obtain rfl := List.mem_singleton.mp hnew
      exact hresolve
  bounded := by
    have := length_evict cache.capacity (cache.entries ++ [⟨query, widths, cache.computed⟩])
    simp only [WidthCache.insert, WidthCache.length]
    omega

/-- A question is answered as it would be afresh, the cache stays coherent, and an error leaves its
entries alone. -/
theorem Coherent.ask (h : cache.Coherent) (hcapacity : 0 ≤ cache.capacity) (query : WidthQuery) :
    (cache.ask query).1.map (·.widths) = query.resolve ∧ (cache.ask query).2.Coherent ∧
      (cache.ask query).2.capacity = cache.capacity ∧
      ∀ e, query.resolve = .error e → (cache.ask query).2 = cache := by
  unfold WidthCache.ask
  cases hfound : cache.find? query with
  | some entry =>
    have hresolve := h.resolve_of_find? hfound
    exact ⟨hresolve.symm, h, rfl, fun _ _ => rfl⟩
  | none =>
    cases hresolve : query.resolve with
    | error e => exact ⟨rfl, h, rfl, fun _ _ => rfl⟩
    | ok widths =>
      have hnot : ¬cache.capacity < 0 := by omega
      simp only [if_neg hnot]
      exact ⟨rfl, h.insert hcapacity hfound hresolve, rfl, fun e he => nomatch he⟩

/-- A coherent cache stays so when the entries of a spec are dropped. -/
theorem Coherent.invalidate (h : cache.Coherent) (spec : Spec) :
    (cache.invalidate spec).Coherent where
  distinct := h.distinct.sublist List.filter_sublist
  answers := fun entry hentry => h.answers entry (List.mem_of_mem_filter hentry)
  bounded := by
    have hbounded := h.bounded
    have := List.length_filter_le (fun entry => !entry.query.spec.same spec) cache.entries
    simp only [WidthCache.invalidate, WidthCache.length] at hbounded ⊢
    omega

/-- A coherent cache stays so when all entries are dropped. -/
theorem Coherent.clear (h : cache.Coherent) : cache.clear.Coherent where
  distinct := .nil
  answers := by simp [WidthCache.clear]
  bounded := by
    have hbounded := h.bounded
    simp only [WidthCache.clear, WidthCache.length, List.length_nil] at hbounded ⊢
    omega

end WidthCache

/-! ### Uses of a shared cache -/

/-- What can be done with a cache that formatters and tables share. -/
inductive CacheUse
  | resolve (query : WidthQuery)
  | invalidate (spec : Spec)
  | clear
  /-- A formatter is bound to a spec and a total width. -/
  | bind (spec : Spec) (total : Int) (measured : Measured)
  /-- A formatter is bound with its columns measured on some records. -/
  | forRecords (spec : Spec) (total : Int) (records : List Value) (withHeaders : Bool)
  /-- A formatter is bound to another total width. -/
  | withTotal (formatter : Formatter) (total : Int)
  /-- A table is drawn. -/
  | render (table : Table) (records : List Value)

/-- What a use of a cache gives. -/
inductive CacheOutcome
  | done
  | widths (result : Except LayoutError Widths)
  | formatter (result : Except LayoutError Formatter)
  | text (result : Except LayoutError Text)

namespace CacheUse

/-- What a use gives, and the cache after it. -/
def perform (cache : WidthCache) : CacheUse → CacheOutcome × WidthCache
  | resolve query =>
    let (result, after) := cache.resolve query.spec query.total query.measured
    (.widths result, after)
  | invalidate spec => (.done, cache.invalidate spec)
  | clear => (.done, cache.clear)
  | bind spec total measured =>
    let (result, after) := Formatter.bind cache spec total measured
    (.formatter result, after)
  | forRecords spec total records withHeaders =>
    let (result, after) := Formatter.forRecords cache spec total records withHeaders
    (.formatter result, after)
  | withTotal formatter total =>
    let (result, after) := Formatter.withTotal cache formatter total
    (.formatter result, after)
  | render table records =>
    let (result, after) := Table.render cache table records
    (.text result, after)

/-- What several uses give one after another, and the cache after them. -/
def performAll (cache : WidthCache) : List CacheUse → List CacheOutcome × WidthCache
  | [] => ([], cache)
  | use :: later =>
    let (outcome, after) := use.perform cache
    let (outcomes, last) := performAll after later
    (outcome :: outcomes, last)

variable {cache : WidthCache}

/-- Widths for a spec are those computed afresh. -/
theorem resolve_of_coherent (h : cache.Coherent) (hcapacity : 0 ≤ cache.capacity) (spec : Spec)
    (total : Int) (measured : Measured) :
    (cache.resolve spec total measured).1 = Widths.resolve spec total measured :=
  (h.ask hcapacity ⟨spec, total, measured⟩).1

/-- A formatter is bound with the widths that are computed afresh. -/
theorem bind_of_coherent (h : cache.Coherent) (spec : Spec) (total : Int) (measured : Measured) :
    (Formatter.bind cache spec total measured).1 =
      (Widths.resolve spec total measured).map fun widths => ⟨spec, total, measured, widths⟩ := by
  have hresolve := resolve_of_coherent h h.capacity_nonneg spec total measured
  simp only [Formatter.bind]
  rw [hresolve]

/-- Coherent caches give one outcome. -/
theorem perform_outcome_eq {other : WidthCache} (h : cache.Coherent)
    (hcapacity : 0 ≤ cache.capacity) (hother : other.Coherent) (hroom : 0 ≤ other.capacity)
    (use : CacheUse) : (use.perform cache).1 = (use.perform other).1 := by
  cases use with
  | resolve query =>
    simp only [perform, resolve_of_coherent h hcapacity, resolve_of_coherent hother hroom]
  | invalidate spec => rfl
  | clear => rfl
  | bind spec total measured =>
    simp only [perform, Formatter.bind, resolve_of_coherent h hcapacity,
      resolve_of_coherent hother hroom]
  | forRecords spec total records withHeaders =>
    simp only [perform, Formatter.forRecords]
    split
    · rfl
    · simp only [Formatter.bind, resolve_of_coherent h hcapacity, resolve_of_coherent hother hroom]
  | withTotal formatter total =>
    simp only [perform, Formatter.withTotal, Formatter.bind, resolve_of_coherent h hcapacity,
      resolve_of_coherent hother hroom]
  | render table records =>
    simp only [perform, Table.render, Table.formatter, Formatter.forRecords]
    split
    · rfl
    · simp only [Formatter.bind, resolve_of_coherent h hcapacity, resolve_of_coherent hother hroom]

/-- Every use keeps a cache coherent and its capacity as it is. -/
theorem perform_coherent (h : cache.Coherent) (hcapacity : 0 ≤ cache.capacity) (use : CacheUse) :
    (use.perform cache).2.Coherent ∧ (use.perform cache).2.capacity = cache.capacity := by
  have hask (query : WidthQuery) :=
    And.intro (h.ask hcapacity query).2.1 (h.ask hcapacity query).2.2.1
  cases use with
  | resolve query => exact hask query
  | invalidate spec => exact ⟨h.invalidate spec, rfl⟩
  | clear => exact ⟨h.clear, rfl⟩
  | bind spec total measured => exact hask ⟨spec, total, measured⟩
  | forRecords spec total records withHeaders =>
    simp only [perform, Formatter.forRecords]
    split
    · exact ⟨h, rfl⟩
    · next measured _ => exact hask ⟨spec, total, some measured⟩
  | withTotal formatter total => exact hask ⟨formatter.spec, total, formatter.measured⟩
  | render table records =>
    simp only [perform, Table.render, Table.formatter, Formatter.forRecords]
    split
    · exact ⟨h, rfl⟩
    · next measured _ => exact hask ⟨table.spec, table.total, some measured⟩

/-- Any uses one after another keep a cache coherent, and each gives what it gives with another
coherent cache. -/
theorem performAll_of_coherent {other : WidthCache} (hother : other.Coherent)
    (hroom : 0 ≤ other.capacity) (h : cache.Coherent) (hcapacity : 0 ≤ cache.capacity)
    (uses : List CacheUse) :
    (performAll cache uses).1 = uses.map (fun use => (use.perform other).1) ∧
      (performAll cache uses).2.Coherent ∧ (performAll cache uses).2.capacity = cache.capacity := by
  induction uses generalizing cache with
  | nil => exact ⟨rfl, h, rfl⟩
  | cons use later ih =>
    obtain ⟨hafter, hsame⟩ := perform_coherent h hcapacity use
    obtain ⟨houtcomes, hlast, hkept⟩ := ih hafter (by omega)
    refine ⟨?_, hlast, hkept.trans hsame⟩
    simp only [performAll, List.map_cons, houtcomes,
      perform_outcome_eq h hcapacity hother hroom use]

/-- **Transparency.** After any uses of a new cache it is coherent, and each use gave what it gives
with a new cache of its own; a question was answered as it is afresh. Asked once more, the cache
answers as afresh, and an error leaves its entries alone. -/
theorem performAll_transparent {capacity fresh : Int} (hcapacity : 0 ≤ capacity)
    (hfresh : 0 ≤ fresh) (uses : List CacheUse) :
    let (outcomes, cache) := performAll (.empty capacity) uses
    outcomes = uses.map (fun use => (use.perform (.empty fresh)).1) ∧
      (∀ (index : Nat) (query : WidthQuery), uses[index]? = some (.resolve query) →
        outcomes[index]? = some (.widths query.resolve)) ∧
      cache.Coherent ∧ cache.capacity = capacity ∧
      ∀ query : WidthQuery, ((resolve query).perform cache).1 = .widths query.resolve ∧
        ∀ e, query.resolve = .error e →
          ((resolve query).perform cache).2.entries = cache.entries := by
  have hnew := WidthCache.coherent_empty hfresh
  obtain ⟨houtcomes, hcoherent, hkept⟩ :=
    performAll_of_coherent hnew hfresh (WidthCache.coherent_empty hcapacity) hcapacity uses
  have hroom : 0 ≤ (performAll (.empty capacity) uses).2.capacity := by rw [hkept]; exact hcapacity
  refine ⟨houtcomes, ?_, hcoherent, hkept, fun query => ⟨?_, fun e he => ?_⟩⟩
  · intro index query hindex
    rw [houtcomes, List.getElem?_map, hindex]
    exact congrArg (some ∘ CacheOutcome.widths) (resolve_of_coherent hnew hfresh _ _ _)
  · exact congrArg CacheOutcome.widths (resolve_of_coherent hcoherent hroom _ _ _)
  · exact congrArg WidthCache.entries ((hcoherent.ask hroom query).2.2.2 e he)

/-- One column of three cells. -/
def threeCells : Spec where
  columns := [⟨{ width := .fixed 3 }, rfl⟩]
  decorations := {}
  sound := Decorations.fault?_default
  whole := rfl

/-- A cache of one entry computes its first question again after another one, and a total width that
is too small for the column is refused every time. -/
theorem performAll_evicting :
    let uses := [resolve ⟨threeCells, 5, none⟩, resolve ⟨threeCells, 7, none⟩,
      resolve ⟨threeCells, 5, none⟩, resolve ⟨threeCells, 2, none⟩]
    (0 : Int) ≤ 1 ∧ (0 : Int) ≤ 128 ∧ (performAll (.empty 1) uses).2.Coherent ∧
      (performAll (.empty 1) uses).1[2]? = some (.widths (.ok ⟨[3], 5⟩)) ∧
      (performAll (.empty 1) uses).1[3]? = some (.widths (.error (.insufficientWidth 3 2))) := by
  intro uses
  have hcapacity : (0 : Int) ≤ 1 := by decide
  have hfresh : (0 : Int) ≤ 128 := by decide
  obtain ⟨_, hanswers, hcoherent, _, _⟩ := performAll_transparent hcapacity hfresh uses
  exact ⟨hcapacity, hfresh, hcoherent, hanswers 2 _ rfl, hanswers 3 _ rfl⟩

end CacheUse

end TextGrid
