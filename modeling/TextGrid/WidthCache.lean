import TextGrid.Resolve

/-!
# The width cache

Resolved widths are kept under the question that they answer. When the cache is full the entry that
was computed first is evicted; finding an entry again does not renew it.
-/

namespace TextGrid

/-- The question that resolved widths answer. -/
structure WidthQuery where
  spec : Spec
  total : Int
  measured : Measured

namespace WidthQuery

/-- Whether two questions are equal, and so have one answer. -/
def same (a b : WidthQuery) : Bool :=
  a.spec.same b.spec && a.total == b.total && a.measured == b.measured

/-- The answer to a question, computed afresh. -/
def resolve (query : WidthQuery) : Except LayoutError Widths :=
  Widths.resolve query.spec query.total query.measured

end WidthQuery

/-- A kept answer, with the number of the computation that gave it. -/
structure CacheEntry where
  query : WidthQuery
  widths : Widths
  serial : Nat

/-- Kept answers, the oldest first. -/
structure WidthCache where
  /-- The number of entries that may be kept. -/
  capacity : Int
  entries : List CacheEntry
  /-- The number of computations so far. -/
  computed : Nat

namespace WidthCache

/-- A cache without entries. -/
def empty (capacity : Int) : WidthCache :=
  ⟨capacity, [], 0⟩

/-- The number of entries that a cache may keep when nothing else is said. -/
def defaultCapacity : Int := 128

/-- The number of entries. -/
def length (cache : WidthCache) : Nat :=
  cache.entries.length

/-- The entry that answers a question. -/
def find? (cache : WidthCache) (query : WidthQuery) : Option CacheEntry :=
  cache.entries.find? (·.query.same query)

/-- The newest entries up to the capacity, in order. -/
def evict (capacity : Int) (entries : List CacheEntry) : List CacheEntry :=
  entries.drop (entries.length - capacity.toNat)

/-- The cache with one more computed answer, and old ones evicted. -/
def insert (cache : WidthCache) (query : WidthQuery) (widths : Widths) : WidthCache :=
  { cache with
    entries := evict cache.capacity (cache.entries ++ [⟨query, widths, cache.computed⟩])
    computed := cache.computed + 1 }

/-- An answer and the computation that it comes from. -/
structure Answer where
  widths : Widths
  serial : Nat
  deriving DecidableEq, Repr

/-- Answers a question from the cache, or computes the answer and keeps it. An error is not kept. A
cache of negative capacity cannot keep the answer and fails. -/
def ask (cache : WidthCache) (query : WidthQuery) : Except LayoutError Answer × WidthCache :=
  match cache.find? query with
  | some entry => (.ok ⟨entry.widths, entry.serial⟩, cache)
  | none =>
    match query.resolve with
    | .error e => (.error e, cache)
    | .ok widths =>
      let kept := cache.insert query widths
      if cache.capacity < 0 then (.error .exhausted, kept)
      else (.ok ⟨widths, cache.computed⟩, kept)

/-- The widths of a spec, from the cache if it has them. -/
def resolve (cache : WidthCache) (spec : Spec) (total : Int) (measured : Measured) :
    Except LayoutError Widths × WidthCache :=
  let (answer, cache) := cache.ask ⟨spec, total, measured⟩
  (answer.map (·.widths), cache)

/-- The cache without the entries of a spec. -/
def invalidate (cache : WidthCache) (spec : Spec) : WidthCache :=
  { cache with entries := cache.entries.filter (!·.query.spec.same spec) }

/-- The cache without any entries. -/
def clear (cache : WidthCache) : WidthCache :=
  { cache with entries := [] }

end WidthCache

end TextGrid
