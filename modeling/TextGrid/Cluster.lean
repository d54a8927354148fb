import TextGrid.Text
import TextGrid.Unicode.ClusterBreak

/-!
# Grapheme clusters

A cluster is what a reader takes for one character: a base with its marks, a flag, a family of
joined pictographs, a Hangul syllable. Clusters are found by a machine that reads the break class of
each code point and says whether a cluster starts there.
-/

namespace TextGrid

/-- The part that a code point plays in the forming of clusters. -/
inductive BreakClass
  | other
  | carriageReturn
  | lineFeed
  | control
  | extending
  | spacingMark
  | joiner
  | pictographic
  | regional
  | lead
  | vowel
  | trail
  | openSyllable
  | closedSyllable
  | prependMark
  deriving DecidableEq, Repr

namespace BreakClass

/-- The class of a code point. A Hangul syllable is open when it lacks a trailing consonant. -/
def ofChar (c : Char) : BreakClass :=
  let code := c.toNat
  if code = 0x0D then .carriageReturn
  else if code = 0x0A then .lineFeed
  else if code = 0x200D then .joiner
  else if Unicode.control.contains code then .control
  else if Unicode.extending.contains code then .extending
  else if Unicode.spacingMark.contains code then .spacingMark
  else if Unicode.pictographic.contains code then .pictographic
  else if 0x1F1E6 ≤ code ∧ code ≤ 0x1F1FF then .regional
  else if 0xAC00 ≤ code ∧ code ≤ 0xD7A3 then
    if (code - 0xAC00) % 28 = 0 then .openSyllable else .closedSyllable
  else if Unicode.hangulLead.contains code then .lead
  else if Unicode.hangulVowel.contains code then .vowel
  else if Unicode.hangulTrail.contains code then .trail
  else if Unicode.prependMark.contains code then .prependMark
  else .other

end BreakClass

/-- What the code points read so far allow to join next. -/
inductive BreakState
  | plain
  | afterReturn
  | afterControl
  | afterPrepend
  | lead
  | vowel
  | trail
  | pictograph
  | joined
  | regional
  deriving DecidableEq, Repr

namespace BreakState

/-- The step with no context: whether a cluster starts at a code point, and the state after it. -/
def enter : BreakClass → Bool × BreakState
  | .other => (true, plain)
  | .carriageReturn => (true, afterReturn)
  | .lineFeed | .control => (true, afterControl)
  | .extending | .spacingMark | .joiner => (false, plain)
  | .pictographic => (true, pictograph)
  | .regional => (true, regional)
  | .lead => (true, lead)
  | .openSyllable | .vowel => (true, vowel)
  | .closedSyllable | .trail => (true, trail)
  | .prependMark => (true, afterPrepend)

/-- Whether a cluster starts at the next code point, and the state after it. -/
def step : BreakState → BreakClass → Bool × BreakState
  | afterReturn, .lineFeed => (false, afterControl)
  | afterReturn, next => (true, (enter next).2)
  | afterControl, next => (true, (enter next).2)
  | afterPrepend, .control | afterPrepend, .lineFeed => (true, plain)
  | afterPrepend, .carriageReturn => (true, afterReturn)
  | afterPrepend, next => (false, (enter next).2)
  | lead, .vowel | lead, .openSyllable => (false, vowel)
  | lead, .closedSyllable => (false, trail)
  | lead, .lead => (false, lead)
  | vowel, .vowel => (false, vowel)
  | vowel, .trail => (false, trail)
  | trail, .trail => (false, trail)
  | pictograph, .extending => (false, pictograph)
  | pictograph, .joiner => (false, joined)
  | joined, .pictographic => (false, pictograph)
  | regional, .regional => (false, plain)
  | _, next => enter next

end BreakState

namespace Cluster

/-- Puts a code point at the head of the first cluster. -/
def grow (c : Char) : List Text → List Text
  | [] => [[c]]
  | cluster :: later => (c :: cluster) :: later

/-- The rest of the current cluster, then the clusters after it. -/
def segmentFrom : BreakState → Text → List Text
  | _, [] => [[]]
  | state, c :: rest =>
    let (starts, next) := state.step (BreakClass.ofChar c)
    let clusters := grow c (segmentFrom next rest)
    if starts then [] :: clusters else clusters

/-- The clusters of a text. -/
def segment : Text → List Text
  | [] => []
  | c :: rest => grow c (segmentFrom (BreakState.enter (BreakClass.ofChar c)).2 rest)

/-- A code point at the head of the first cluster comes first in the text of all clusters. -/
theorem flatten_grow (c : Char) (clusters : List Text) :
    (grow c clusters).flatten = c :: clusters.flatten := by
  cases clusters <;> rfl

/-- Clusters make up the text from any state on. -/
theorem flatten_segmentFrom (state : BreakState) (text : Text) :
    (segmentFrom state text).flatten = text := by
  induction text generalizing state with
  | nil => rfl
  | cons c rest ih =>
    simp only [segmentFrom]
    split <;> simp [flatten_grow, ih]

/-- The clusters of a text make up the text. -/
@[simp] theorem flatten_segment (text : Text) : (segment text).flatten = text := by
  cases text with
  | nil => rfl
  | cons c rest => simp [segment, flatten_grow, flatten_segmentFrom]

/-- Only the rest of the current cluster may be empty. -/
theorem ne_nil_of_mem_segmentFrom {state : BreakState} {text cluster : Text}
    (h : cluster ∈ (segmentFrom state text).tail) : cluster ≠ [] := by
  induction text generalizing state with
  | nil => simp [segmentFrom] at h
  | cons c rest ih =>
    simp only [segmentFrom] at h
    cases hlater : segmentFrom (state.step (BreakClass.ofChar c)).2 rest with
    | nil =>
      rw [hlater] at h
      split at h
      · obtain rfl : cluster = [c] := by simpa [grow] using h
        exact List.cons_ne_nil c []
      · simp [grow] at h
    | cons first later =>
      have hfrom : cluster ∈ later → cluster ≠ [] := fun hmem => ih (by rw [hlater]; exact hmem)
      rw [hlater] at h
      split at h
      · rcases List.mem_cons.mp h with rfl | hmem
        · exact List.cons_ne_nil c first
        · exact hfrom hmem
      · exact hfrom h

/-- No cluster of a text is empty. -/
theorem ne_nil_of_mem_segment {text cluster : Text} (h : cluster ∈ segment text) :
    cluster ≠ [] := by
  cases text with
  | nil => simp [segment] at h
  | cons c rest =>
    simp only [segment] at h
    cases hlater : segmentFrom (BreakState.enter (BreakClass.ofChar c)).2 rest with
    | nil =>
      obtain rfl : cluster = [c] := by simpa [hlater, grow] using h
      exact List.cons_ne_nil c []
    | cons first later =>
      rw [hlater] at h
      rcases List.mem_cons.mp h with rfl | hmem
      · exact List.cons_ne_nil c first
      · exact ne_nil_of_mem_segmentFrom (by rw [hlater]; exact hmem)

/-- Only the empty text has no clusters. -/
theorem segment_eq_nil_iff {text : Text} : segment text = [] ↔ text = [] := by
  refine ⟨fun h => ?_, fun h => by rw [h]; rfl⟩
  rw [← flatten_segment text, h]
  rfl

end Cluster

end TextGrid
