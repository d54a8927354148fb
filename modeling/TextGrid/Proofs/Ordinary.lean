import Mathlib.Data.List.Basic
import TextGrid.Cluster.Width

/-!
# Ordinary code points

An ordinary code point takes one or two cells and is a cluster of its own whatever ordinary code
points stand around it. These are letters, digits, most symbols, ideographs, precomposed syllables
and the space. A text of ordinary code points and blanks is as wide as its code points together
(`Text.width_eq_cells`).
-/

namespace TextGrid

/-- Break classes whose code points never join a neighbour of such a class. -/
def BreakClass.isSolitary : BreakClass → Bool
  | .other | .control | .pictographic | .openSyllable | .closedSyllable => true
  | _ => false

/-- States after a code point of such a class. -/
def BreakState.isSolitary : BreakState → Bool
  | .plain | .afterControl | .pictograph | .vowel | .trail => true
  | _ => false

namespace Cluster

/-- Whether a code point is a cluster of its own among others of its kind. -/
def isSolitary (c : Char) : Bool :=
  (BreakClass.ofChar c).isSolitary

/-- Whether a code point takes cells and is a cluster of its own among others of its kind. -/
def isOrdinary (c : Char) : Bool :=
  isSolitary c && 0 < charWidth c

end Cluster

namespace BreakState

/-- A code point of such a class starts a cluster of its own. -/
theorem enter_of_isSolitary {next : BreakClass} (h : next.isSolitary = true) :
    (enter next).1 = true ∧ (enter next).2.isSolitary = true := by
  cases next <;> first | exact ⟨rfl, rfl⟩ | exact absurd h Bool.false_ne_true

/-- Behind such a code point another one starts a cluster of its own. -/
theorem step_of_isSolitary {state : BreakState} {next : BreakClass}
    (hstate : state.isSolitary = true) (hnext : next.isSolitary = true) :
    (state.step next).1 = true ∧ (state.step next).2.isSolitary = true := by
  cases state <;> cases next <;>
    first
    | exact ⟨rfl, rfl⟩
    | exact absurd hstate Bool.false_ne_true
    | exact absurd hnext Bool.false_ne_true

/-- A carriage return starts a cluster in every state. -/
theorem step_carriageReturn (state : BreakState) :
    state.step .carriageReturn = (true, .afterReturn) := by
  cases state <;> rfl

/-- A line feed starts a cluster behind a code point that stands alone. -/
theorem step_lineFeed {state : BreakState} (h : state.isSolitary = true) :
    state.step .lineFeed = (true, .afterControl) := by
  cases state <;> first | rfl | exact absurd h Bool.false_ne_true

/-- Behind a carriage return a code point of such a class starts a cluster. -/
theorem step_afterReturn {next : BreakClass} (h : next.isSolitary = true) :
    step .afterReturn next = (true, (enter next).2) := by
  cases next <;> first | rfl | exact absurd h Bool.false_ne_true

/-- After a control the machine starts afresh. -/
theorem step_afterControl (next : BreakClass) :
    step .afterControl next = (true, (enter next).2) := by
  rfl

end BreakState

namespace Cluster

/-! ### Clusters of solitary code points -/

/-- Behind a code point that stands alone, such code points are clusters one by one. -/
theorem segmentFrom_of_isSolitary {state : BreakState} {text : Text}
    (hstate : state.isSolitary = true) (htext : ∀ c ∈ text, isSolitary c = true) :
    segmentFrom state text = [] :: text.map fun c => [c] := by
  induction text generalizing state with
  | nil => rfl
  | cons c rest ih =>
    obtain ⟨hbreak, hnext⟩ := BreakState.step_of_isSolitary hstate (htext c (by simp))
    have hrest := ih hnext fun d hd => htext d (List.mem_cons_of_mem c hd)
    simp [segmentFrom, hbreak, hrest, grow]

/-- Solitary code points are clusters of their own, in any combination. -/
theorem segment_of_isSolitary {text : Text} (h : ∀ c ∈ text, isSolitary c = true) :
    segment text = text.map fun c => [c] := by
  cases text with
  | nil => rfl
  | cons c rest =>
    obtain ⟨_, hnext⟩ := BreakState.enter_of_isSolitary (h c (by simp))
    have hrest := segmentFrom_of_isSolitary hnext fun d hd => h d (List.mem_cons_of_mem c hd)
    simp [segment, hrest, grow]

/-- The clusters of ordinary text are its code points. -/
theorem segment_of_isOrdinary {text : Text} (h : ∀ c ∈ text, isOrdinary c = true) :
    segment text = text.map fun c => [c] :=
  segment_of_isSolitary fun c hc => (Bool.and_eq_true_iff.mp (h c hc)).1

/-! ### Line ends -/

/-- A choice of two classes is not a third one. -/
theorem ite_ne {p : Prop} [Decidable p] {first second target : BreakClass}
    (hfirst : first ≠ target) (hsecond : second ≠ target) :
    (if p then first else second) ≠ target := by
  split
  · exact hfirst
  · exact hsecond

/-- Only one code point is a carriage return. -/
theorem eq_of_ofChar_carriageReturn {c : Char} (h : BreakClass.ofChar c = .carriageReturn) :
    c = '\r' := by
  by_contra hne
  have hcode : c.toNat ≠ 0x0D := fun hcode => hne (Char.toNat_inj.mp hcode)
  have hother : BreakClass.ofChar c ≠ .carriageReturn := by
    rw [BreakClass.ofChar, if_neg hcode]
    repeat' apply ite_ne
    all_goals decide
  exact hother h

/-- Only one code point is a line feed. -/
theorem eq_of_ofChar_lineFeed {c : Char} (h : BreakClass.ofChar c = .lineFeed) : c = '\n' := by
  by_contra hne
  have hcode : c.toNat ≠ 0x0A := fun hcode => hne (Char.toNat_inj.mp hcode)
  have hother : BreakClass.ofChar c ≠ .lineFeed := by
    rw [BreakClass.ofChar, if_neg hcode]
    repeat' apply ite_ne
    all_goals decide
  exact hother h

/-- A carriage return takes no cell. -/
theorem charWidth_carriageReturn : charWidth '\r' = 0 := by decide +kernel

/-- A line feed takes no cell. -/
theorem charWidth_lineFeed : charWidth '\n' = 0 := by decide +kernel

/-- A code point that is a cluster of its own beside itself, and takes cells, is ordinary. So the
ordinary code points are the most that can stand together in every combination. -/
theorem isOrdinary_of_segment_pair {c : Char} (hwidth : 0 < charWidth c)
    (hpair : segment [c, c] = [[c], [c]]) : isOrdinary c = true := by
  have hreturn : BreakClass.ofChar c ≠ .carriageReturn := by
    intro hclass
    rw [eq_of_ofChar_carriageReturn hclass, charWidth_carriageReturn] at hwidth
    omega
  have hfeed : BreakClass.ofChar c ≠ .lineFeed := by
    intro hclass
    rw [eq_of_ofChar_lineFeed hclass, charWidth_lineFeed] at hwidth
    omega
  simp only [segment, segmentFrom] at hpair
  simp only [isOrdinary, isSolitary, hwidth, decide_true, Bool.and_true]
  generalize BreakClass.ofChar c = kind at *
  cases kind <;>
    first | rfl | exact absurd rfl hreturn | exact absurd rfl hfeed | cases hpair

/-- No code point takes more than two cells, so that ordinary ones take one or two. -/
theorem charWidth_le_two (c : Char) : charWidth c ≤ 2 := by
  unfold charWidth
  split
  · omega
  · split <;> omega

/-! ### Calm code points -/

/-- Whether a code point joins no other, but for a line feed that follows a carriage return. -/
def isCalm (c : Char) : Bool :=
  isSolitary c || c == '\r' || c == '\n'

/-- Ordinary code points are calm. -/
theorem isCalm_of_isOrdinary {c : Char} (h : isOrdinary c = true) : isCalm c = true := by
  simp only [isOrdinary, Bool.and_eq_true] at h
  simp [isCalm, h.1]

/-- The code points of white space. -/
def blankCodes : List Nat :=
  [0x09, 0x0A, 0x0B, 0x0C, 0x0D, 0x1C, 0x1D, 0x1E, 0x1F, 0x20, 0x85, 0xA0, 0x1680, 0x2000, 0x2001,
    0x2002, 0x2003, 0x2004, 0x2005, 0x2006, 0x2007, 0x2008, 0x2009, 0x200A, 0x2028, 0x2029, 0x202F,
    0x205F, 0x3000]

/-- The code point of white space is one of those listed. -/
theorem mem_blankCodes_of_isBlank {c : Char} (h : Text.isBlank c = true) :
    c.toNat ∈ blankCodes := by
  have hruns : blankCodes = List.range' 0x09 5 ++ List.range' 0x1C 5 ++ [0x85, 0xA0, 0x1680] ++
      List.range' 0x2000 11 ++ [0x2028, 0x2029, 0x202F, 0x205F, 0x3000] := rfl
  simp only [Text.isBlank, Bool.or_eq_true, Bool.and_eq_true, decide_eq_true_eq,
    beq_iff_eq] at h
  simp only [hruns, List.mem_append, List.mem_range'_1, List.mem_cons, List.not_mem_nil, or_false]
  omega

/-- White space is calm. -/
theorem isCalm_of_isBlank {c : Char} (h : Text.isBlank c = true) : isCalm c = true := by
  have hcalm : ∀ code ∈ blankCodes, isCalm (Char.ofNat code) = true := by decide +kernel
  have hc := hcalm c.toNat (mem_blankCodes_of_isBlank h)
  rwa [Char.ofNat_toNat] at hc

/-- The code points of printable ASCII. -/
def plainCodes : List Nat :=
  List.range' 0x20 0x5F

/-- Printable ASCII is ordinary and takes one cell for each code point. -/
theorem isOrdinary_of_isPlain {c : Char} (h : Text.isPlain c = true) :
    isOrdinary c = true ∧ charWidth c = 1 := by
  have hplain : ∀ code ∈ plainCodes,
      isOrdinary (Char.ofNat code) = true ∧ charWidth (Char.ofNat code) = 1 := by decide +kernel
  have hmem : c.toNat ∈ plainCodes := by
    simp only [Text.isPlain, Bool.and_eq_true, decide_eq_true_eq] at h
    exact List.mem_range'_1.mpr ⟨h.1, by omega⟩
  have hc := hplain c.toNat hmem
  rwa [Char.ofNat_toNat] at hc

/-- Printable ASCII is segmented into single code points of one cell. -/
theorem segment_of_isPlain {text : Text} (h : text.all Text.isPlain = true) :
    segment text = text.map (fun c => [c]) ∧ ∀ c ∈ text, width [c] = 1 := by
  have hplain : ∀ c ∈ text, isOrdinary c = true ∧ charWidth c = 1 := fun c hc =>
    isOrdinary_of_isPlain (List.all_eq_true.mp h c hc)
  exact ⟨segment_of_isOrdinary fun c hc => (hplain c hc).1, fun c hc => (hplain c hc).2⟩

end Cluster

namespace Text

/-- Cells of the code points of a text, each taken alone. -/
def cells (text : Text) : Nat :=
  sumNat (text.map Cluster.charWidth)

/-- The empty text takes no cells. -/
@[simp] theorem cells_nil : cells [] = 0 := rfl

/-- The cells of a first code point count towards those of the whole. -/
@[simp] theorem cells_cons (c : Char) (rest : Text) :
    cells (c :: rest) = Cluster.charWidth c + cells rest := rfl

/-- The cells of two texts add up. -/
@[simp] theorem cells_append (left right : Text) :
    cells (left ++ right) = cells left + cells right := by
  simp [cells]

end Text

namespace Cluster

/-- A calm code point starts a cluster, unless it ends a line that a carriage return began to
end. -/
theorem step_of_isCalm {state : BreakState} {c : Char}
    (hstate : state.isSolitary = true ∨ state = .afterReturn) (hc : isCalm c = true) :
    (∃ next, state.step (BreakClass.ofChar c) = (true, next) ∧
      (next.isSolitary = true ∨ next = .afterReturn ∧ c = '\r')) ∨
    (state = .afterReturn ∧ c = '\n' ∧
      state.step (BreakClass.ofChar c) = (false, .afterControl)) := by
  have hreturn : BreakClass.ofChar '\r' = .carriageReturn := by decide +kernel
  have hfeed : BreakClass.ofChar '\n' = .lineFeed := by decide +kernel
  simp only [isCalm, Bool.or_eq_true, beq_iff_eq] at hc
  rcases hc with (hc | rfl) | rfl
  · left
    simp only [isSolitary] at hc
    rcases hstate with hstate | rfl
    · obtain ⟨hbreak, hnext⟩ := BreakState.step_of_isSolitary hstate hc
      exact ⟨_, Prod.ext hbreak rfl, Or.inl hnext⟩
    · exact ⟨_, BreakState.step_afterReturn hc, Or.inl (BreakState.enter_of_isSolitary hc).2⟩
  · left
    refine ⟨.afterReturn, ?_, Or.inr ⟨rfl, rfl⟩⟩
    rw [hreturn]
    exact BreakState.step_carriageReturn state
  · rcases hstate with hstate | rfl
    · left
      refine ⟨.afterControl, ?_, Or.inl rfl⟩
      rw [hfeed]
      exact BreakState.step_lineFeed hstate
    · right
      exact ⟨rfl, rfl, by rw [hfeed]; rfl⟩

/-- Clusters of calm code points are as wide as their code points: the one joined cluster, a line
end, takes no cells, and neither do its parts. -/
theorem sumNat_segmentFrom_of_isCalm {state : BreakState} {text : Text}
    (hstate : state.isSolitary = true ∨ state = .afterReturn)
    (htext : ∀ c ∈ text, isCalm c = true) :
    ∃ first later, segmentFrom state text = first :: later ∧
      (first = [] ∨ state = .afterReturn ∧ first = ['\n']) ∧
      Text.cells first + sumNat (later.map width) = Text.cells text := by
  induction text generalizing state with
  | nil => exact ⟨[], [], rfl, Or.inl rfl, rfl⟩
  | cons c rest ih =>
    have hrest : ∀ d ∈ rest, isCalm d = true := fun d hd => htext d (List.mem_cons_of_mem c hd)
    rcases step_of_isCalm hstate (htext c (List.mem_cons_self ..)) with
      ⟨next, hstep, hnext⟩ | ⟨rfl, rfl, hstep⟩
    · obtain ⟨first, later, hsegment, hfirst, hsum⟩ := ih (hnext.imp_right And.left) hrest
      have hwidth : width (c :: first) = charWidth c + Text.cells first := by
        rcases hfirst with rfl | ⟨rfl, rfl⟩
        · rfl
        · obtain rfl : c = '\r' := by simpa [BreakState.isSolitary] using hnext
          decide +kernel
      refine ⟨[], (c :: first) :: later, ?_, Or.inl rfl, ?_⟩
      · simp [segmentFrom, hstep, hsegment, grow]
      · simp only [Text.cells_nil, List.map_cons, sumNat_cons, hwidth, Text.cells_cons]
        omega
    · have hcontrol : BreakState.afterControl.isSolitary = true := rfl
      obtain ⟨first, later, hsegment, hfirst, hsum⟩ := ih (Or.inl hcontrol) hrest
      obtain rfl : first = [] := by simpa using hfirst
      refine ⟨['\n'], later, ?_, Or.inr ⟨rfl, rfl⟩, ?_⟩
      · simp [segmentFrom, hstep, hsegment, grow]
      · simpa using hsum

/-- Behind a control code point a text has its own clusters. -/
theorem segmentFrom_afterControl (text : Text) :
    segmentFrom .afterControl text = [] :: segment text := by
  cases text with
  | nil => rfl
  | cons c rest => simp [segmentFrom, segment, BreakState.step_afterControl]

/-- The clusters of calm text take the cells of its code points. -/
theorem sumNat_segment_of_isCalm {text : Text} (h : ∀ c ∈ text, isCalm c = true) :
    sumNat ((segment text).map width) = Text.cells text := by
  have hcontrol : BreakState.afterControl.isSolitary = true := rfl
  obtain ⟨first, later, hsegment, hfirst, hsum⟩ :=
    sumNat_segmentFrom_of_isCalm (Or.inl hcontrol) h
  obtain ⟨rfl, rfl⟩ : [] = first ∧ segment text = later := by
    simpa [segmentFrom_afterControl] using hsegment
  simpa using hsum

end Cluster

namespace Text

/-- Counting printable ASCII gives the width of its clusters. -/
theorem width_eq_clusteredWidth (text : Text) : width text = clusteredWidth text := by
  by_cases hplain : text.all isPlain = true
  · obtain ⟨hsegment, hone⟩ := Cluster.segment_of_isPlain hplain
    rw [width, if_pos hplain, clusteredWidth, hsegment]
    clear hplain hsegment
    induction text with
    | nil => rfl
    | cons c rest ih =>
      obtain ⟨hc, hrest⟩ := List.forall_mem_cons.mp hone
      rw [List.length_cons, ih hrest, List.map_cons, List.map_cons, sumNat_cons, hc, Nat.add_comm]
  · rw [width, if_neg hplain]

/-- A calm text is as wide as its code points together. -/
theorem width_eq_cells {text : Text} (h : ∀ c ∈ text, Cluster.isCalm c = true) :
    width text = cells text := by
  rw [width_eq_clusteredWidth, clusteredWidth, Cluster.sumNat_segment_of_isCalm h]

/-- Whether every code point of a text is ordinary. -/
def IsOrdinary (text : Text) : Prop :=
  ∀ c ∈ text, Cluster.isOrdinary c = true

/-- Whether every code point of a text is calm. -/
def IsCalm (text : Text) : Prop :=
  ∀ c ∈ text, Cluster.isCalm c = true

instance (text : Text) : Decidable (IsOrdinary text) :=
  List.decidableBAll (Cluster.isOrdinary · = true) text

/-- Ordinary text is calm. -/
theorem IsOrdinary.isCalm {text : Text} (h : IsOrdinary text) : IsCalm text := fun c hc =>
  Cluster.isCalm_of_isOrdinary (h c hc)

/-- The empty text is ordinary. -/
theorem isOrdinary_nil : IsOrdinary [] := by
  simp [IsOrdinary]

/-- Two texts are ordinary together if each of them is. -/
theorem isOrdinary_append {left right : Text} :
    IsOrdinary (left ++ right) ↔ IsOrdinary left ∧ IsOrdinary right :=
  List.forall_mem_append

/-- A text of code points of ordinary text is ordinary. -/
theorem IsOrdinary.subset {text part : Text} (h : IsOrdinary text) (hpart : part ⊆ text) :
    IsOrdinary part := fun c hc => h c (hpart hc)

/-- A space is ordinary. -/
theorem isOrdinary_space : Cluster.isOrdinary ' ' = true :=
  (Cluster.isOrdinary_of_isPlain rfl).1

/-- A space takes one cell. -/
theorem charWidth_space : Cluster.charWidth ' ' = 1 :=
  (Cluster.isOrdinary_of_isPlain rfl).2

/-- Spaces are ordinary. -/
theorem isOrdinary_spaces (count : Int) : IsOrdinary (spaces count) := by
  intro c hc
  rw [List.eq_of_mem_replicate hc]
  exact isOrdinary_space

/-- A code point takes its cells as often as it is repeated. -/
theorem cells_replicate (count : Nat) (c : Char) :
    cells (List.replicate count c) = count * Cluster.charWidth c := by
  induction count with
  | zero => simp
  | succ count ih => rw [List.replicate_succ, cells_cons, ih, Nat.succ_mul, Nat.add_comm]

/-- Spaces take one cell each. -/
@[simp] theorem cells_spaces (count : Int) : cells (spaces count) = count.toNat := by
  rw [spaces, cells_replicate, charWidth_space, Nat.mul_one]

/-- A text takes the same cells backwards. -/
@[simp] theorem cells_reverse (text : Text) : cells text.reverse = cells text := by
  induction text with
  | nil => rfl
  | cons c rest ih => simp [ih, Nat.add_comm]

/-- Only the empty text of ordinary code points takes no cells. -/
theorem IsOrdinary.cells_eq_zero_iff {text : Text} (h : IsOrdinary text) :
    cells text = 0 ↔ text = [] := by
  cases text with
  | nil => simp
  | cons c rest =>
    have hc := h c (List.mem_cons_self ..)
    simp only [Cluster.isOrdinary, Bool.and_eq_true, decide_eq_true_eq] at hc
    simp only [cells_cons, reduceCtorEq, iff_false]
    omega

end Text

end TextGrid
