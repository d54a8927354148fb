import TextGrid.Proofs.GreedyLines
import TextGrid.Proofs.RepairedSlices

/-!
# Rewrapped lines

The lines of a wrapped plain text, joined by spaces and wrapped once more, stay the same lines
(`wrap_wrap`), although the pieces of a broken word are words of their own then. No piece moves: a
line that breaks its word leaves at most one cell, and a space with a glyph behind it needs two. So
the lines are a greedy layout of the pieces, and words have no other (`IsGreedy.unique`).
-/

namespace TextGrid

namespace Text

/-! ### Words of joined texts -/

namespace Reader

/-- The reader with older words before its own. -/
def behind (older : List Text) (reader : Reader) : Reader :=
  { reader with words := reader.words ++ older }

/-- A word ends in the same way behind older words. -/
theorem endWord_behind (older : List Text) (reader : Reader) :
    (reader.behind older).endWord = reader.endWord.behind older := by
  by_cases hcurrent : reader.current = [] <;> simp [endWord, behind, hcurrent]

/-- Reading does not look at older words. -/
theorem foldl_step_behind (older : List Text) (text : Text) (reader : Reader) :
    text.foldl step (reader.behind older) = (text.foldl step reader).behind older := by
  induction text generalizing reader with
  | nil => rfl
  | cons c rest ih =>
    have hstep : (reader.behind older).step c = (reader.step c).behind older := by
      unfold step
      split
      · exact endWord_behind older reader
      · rfl
    rw [List.foldl_cons, hstep, ih, List.foldl_cons]

/-- Behind the end of a word, reading starts anew. -/
theorem endWord_eq_behind (reader : Reader) :
    reader.endWord = behind reader.endWord.words ⟨[], []⟩ := by
  obtain ⟨words, current⟩ := reader
  by_cases hcurrent : current = [] <;> simp [endWord, behind, hcurrent]

end Reader

/-- A blank parts the words before it from those behind it. -/
theorem words_append_blank {c : Char} (hblank : isBlank c = true) (left right : Text) :
    words (left ++ c :: right) = words left ++ words right := by
  have hleft := (left.foldl Reader.step ⟨[], []⟩).endWord_eq_behind
  rw [words, List.foldl_append, List.foldl_cons, Reader.step, if_pos hblank, hleft,
    Reader.foldl_step_behind, Reader.endWord_behind]
  simp [words, Reader.behind]

/-- A text without blanks is a word. -/
theorem words_of_inked {word : Text} (hne : word ≠ [])
    (hinked : ∀ c ∈ word, isBlank c = false) : words word = [word] := by
  simp [words, Reader.foldl_step_of_notBlank hinked, Reader.endWord, hne]

/-- Words with a space before each but the first are found again. -/
theorem words_spaced {first : Text} {others : List Text}
    (h : ∀ word ∈ first :: others, word ≠ [] ∧ ∀ c ∈ word, isBlank c = false) :
    words (first ++ others.flatMap (' ' :: ·)) = first :: others := by
  induction others generalizing first with
  | nil =>
    obtain ⟨hne, hinked⟩ := h first (by simp)
    rw [List.flatMap_nil, List.append_nil, words_of_inked hne hinked]
  | cons next later ih =>
    obtain ⟨⟨hne, hinked⟩, hothers⟩ := List.forall_mem_cons.mp h
    rw [List.flatMap_cons, List.cons_append, words_append_blank (by decide), ih hothers,
      words_of_inked hne hinked, List.singleton_append]

/-- The words of texts joined by spaces are the words of all of them. -/
theorem words_joined (parts : List Text) : words (joined [' '] parts) = parts.flatMap words := by
  unfold joined
  induction parts with
  | nil => rfl
  | cons first later ih =>
    cases later with
    | nil => simp
    | cons next others =>
      rw [List.intercalate_cons_cons, List.append_assoc, List.singleton_append,
        words_append_blank (by decide), ih]
      simp

end Text

/-! ### One line and the next -/

namespace WordLine

/-- Behind a line that ends with a whole word comes a word that found no room there. -/
theorem precedes_iff_of_whole {line next : WordLine} (hwhole : line.after = []) :
    line.Precedes next ↔
      next.before = [] ∧ line.room < Text.cells (line.text ++ ' ' :: next.pending) := by
  rw [Precedes, if_pos hwhole]

/-- Behind a line that ends in a word comes the rest of this word. -/
theorem precedes_iff_of_broken {line next : WordLine} (hbroken : line.after ≠ []) :
    line.Precedes next ↔
      next.before = line.before ++ line.first ∧ next.pending = line.after := by
  rw [Precedes, if_neg hbroken]

/-- A line that breaks its first word has no room for the next glyph. -/
theorem IsSound.room_lt {line : WordLine} (h : line.IsSound) {c : Char} {rest : Text}
    (hafter : line.after = c :: rest) :
    line.room < Text.cells line.first + Cluster.charWidth c := by
  obtain ⟨_, _, hlongest⟩ := h.split (by simp [hafter])
  have hpart : line.first ++ [c] <+: line.pending := ⟨rest, by simp [pending, hafter]⟩
  by_contra hroom
  have hcells : Text.cells (line.first ++ [c]) ≤ line.room := by
    rw [Text.cells_append, Text.cells_cons, Text.cells_nil]
    omega
  have hlength := (hlongest _ hpart hcells).length_le
  rw [List.length_append, List.length_singleton] at hlength
  omega

/-- A line that breaks its first word leaves at most one cell. -/
theorem IsSound.room_le {line : WordLine} (h : line.IsSound) (hafter : line.after ≠ []) :
    line.room ≤ Text.cells line.first + 1 := by
  obtain ⟨c, rest, hrest⟩ := List.exists_cons_of_ne_nil hafter
  have hroom := h.room_lt hrest
  have htwo := Cluster.charWidth_le_two c
  omega

/-- A line takes the part of its first word that a forced cut of what is left of it takes. -/
theorem IsSound.first_eq {line : WordLine} (h : line.IsSound) :
    line.first = Text.fitting true line.room line.pending := by
  have hfirst : Text.fitting true line.room line.first = line.first := by
    rcases h.fits with hfits | ⟨_, c, htext, _⟩
    · rw [text, Text.cells_append] at hfits
      exact Text.fitting_of_le true (by omega)
    · rcases List.append_eq_singleton_iff.mp htext with ⟨hnone, _⟩ | ⟨hsingle, _⟩
      · exact absurd hnone h.started
      · rw [hsingle]
        simp [Text.fitting]
  have hrest : Text.fitting (true && line.first.isEmpty) (line.room - Text.cells line.first)
      line.after = [] := by
    cases hafter : line.after with
    | nil => simp [Text.fitting]
    | cons c rest =>
      have hroom := h.room_lt hafter
      have hstarted : (true && line.first.isEmpty) = false := by simp [h.started]
      rw [Text.fitting, if_pos ⟨by omega, hstarted⟩]
  rw [pending, Text.fitting_append, if_pos hfirst, hrest, List.append_nil]

/-- A line with several words fits in its room. -/
theorem IsSound.cells_le {line : WordLine} (h : line.IsSound) (hothers : line.others ≠ []) :
    Text.cells line.text ≤ line.room := by
  rcases h.fits with hfits | ⟨_, c, htext, _⟩
  · exact hfits
  · obtain ⟨word, words, hwords⟩ := List.exists_cons_of_ne_nil hothers
    rw [text, hwords] at htext
    rcases List.append_eq_singleton_iff.mp htext with ⟨hnone, _⟩ | ⟨_, hnone⟩
    · exact absurd hnone h.started
    · simp at hnone

end WordLine

/-! ### The only greedy layout -/

namespace WordLine

/-- The part of a word that stands on lines up to this one, if the word goes on behind it. -/
def carried (line : WordLine) : Text :=
  if line.after = [] then [] else line.before ++ line.first

/-- The words that stand on lines, of the first one what the lines before them leave. -/
def remaining : List WordLine → List Text
  | [] => []
  | line :: later => line.pending :: line.others ++ later.flatMap begun

end WordLine

namespace Fills

variable {room laterRoom : Nat} {before : Text} {line line' : WordLine}
  {later later' : List WordLine}

/-- The lines behind the first one go on with what it leaves. -/
theorem tail (h : Fills room laterRoom before (line :: later)) :
    Fills laterRoom laterRoom line.carried later := by
  obtain ⟨hnext, hlater⟩ := List.isChain_cons.mp h.later
  refine ⟨?_, hlater, ?_, fun next hmem => h.sound next (List.mem_cons_of_mem _ hmem)⟩
  · intro next hmem
    obtain ⟨hroom, hprecedes⟩ := hnext next hmem
    refine ⟨hroom, ?_⟩
    by_cases hafter : line.after = []
    · rw [WordLine.carried, if_pos hafter]
      exact ((WordLine.precedes_iff_of_whole hafter).mp hprecedes).1
    · rw [WordLine.carried, if_neg hafter]
      exact ((WordLine.precedes_iff_of_broken hafter).mp hprecedes).1
  · intro last hlast
    apply h.last last
    rw [List.getLast?_cons, Option.mem_def.mp hlast]
    rfl

/-- A line leaves what it does not take of its first word to the lines behind it. -/
theorem remaining_tail (h : Fills room laterRoom before (line :: later)) :
    WordLine.remaining later =
      (if line.after = [] then [] else [line.after]) ++ later.flatMap WordLine.begun := by
  have hsound : line.IsSound := h.sound line (List.mem_cons_self ..)
  cases later with
  | nil =>
    have hafter : line.after = [] := h.last line rfl
    simp [WordLine.remaining, hafter]
  | cons next others =>
    obtain ⟨_, hprecedes⟩ := (List.isChain_cons_cons.mp h.later).1
    by_cases hafter : line.after = []
    · obtain ⟨hbefore, _⟩ := (WordLine.precedes_iff_of_whole hafter).mp hprecedes
      simp [WordLine.remaining, WordLine.begun, hafter, hbefore]
    · obtain ⟨hbefore, hpending⟩ := (WordLine.precedes_iff_of_broken hafter).mp hprecedes
      simp [WordLine.remaining, WordLine.begun, hafter, hbefore, hpending, hsound.started]

/-- Lines that go on with no word hold the words that begin on them. -/
theorem remaining_eq_begun {layout : List WordLine} (h : Fills room laterRoom [] layout) :
    WordLine.remaining layout = layout.flatMap WordLine.begun := by
  cases layout with
  | nil => rfl
  | cons line later =>
    obtain ⟨_, hbefore⟩ := h.first line rfl
    simp [WordLine.remaining, WordLine.begun, hbefore]

/-- A line that breaks no word has no room for the first word behind it. -/
theorem room_lt_of_begun (h : Fills room laterRoom before (line :: later))
    (hwhole : line.after = []) {word : Text} {words : List Text}
    (hbegun : later.flatMap WordLine.begun = word :: words) :
    line.room < Text.cells (line.text ++ ' ' :: word) := by
  cases later with
  | nil => simp at hbegun
  | cons next others =>
    obtain ⟨_, hprecedes⟩ := (List.isChain_cons_cons.mp h.later).1
    obtain ⟨hbefore, hover⟩ := (WordLine.precedes_iff_of_whole hwhole).mp hprecedes
    rw [List.flatMap_cons, WordLine.begun, if_pos hbefore, List.cons_append] at hbegun
    obtain ⟨rfl, _⟩ := List.cons.inj hbegun
    exact hover

/-- Of two lines with the same words to come none takes more of them: where one ends, the next word
does not fit. -/
theorem length_others_le (h : Fills room laterRoom before (line :: later))
    (h' : Fills room laterRoom before (line' :: later')) (hfirst : line.first = line'.first)
    (hafter : line.after = line'.after) (hwords : line.others ++ later.flatMap WordLine.begun =
      line'.others ++ later'.flatMap WordLine.begun) :
    line'.others.length ≤ line.others.length := by
  obtain ⟨hroom, _⟩ := h.first line rfl
  obtain ⟨hroom', _⟩ := h'.first line' rfl
  have hsound : line.IsSound := h.sound line (List.mem_cons_self ..)
  have hsound' : line'.IsSound := h'.sound line' (List.mem_cons_self ..)
  by_contra hlonger
  rcases List.append_eq_append_iff.mp hwords with ⟨more, hothers, hbegun⟩ | ⟨more, hothers, _⟩
  · -- The further words on the other line begin with one that `line` has no room for.
    cases more with
    | nil =>
      rw [hothers, List.append_nil] at hlonger
      omega
    | cons word words =>
      have hsome : line'.others ≠ [] := by simp [hothers]
      have hwhole : line.after = [] := by
        by_contra hbroken
        exact hsome (hsound'.split (by rwa [← hafter])).1
      have hover := h.room_lt_of_begun hwhole hbegun
      have hfits := hsound'.cells_le hsome
      simp only [WordLine.text, hothers, ← hfirst, List.flatMap_append, List.flatMap_cons,
        Text.cells_append] at hfits hover
      omega
  · rw [hothers, List.length_append] at hlonger
    omega

/-- Words are laid out on lines in one way only. -/
theorem unique {layout layout' : List WordLine} (h : Fills room laterRoom before layout)
    (h' : Fills room laterRoom before layout')
    (hwords : WordLine.remaining layout = WordLine.remaining layout') : layout = layout' := by
  induction layout generalizing room before layout' with
  | nil =>
    cases layout' with
    | nil => rfl
    | cons line' later' => simp [WordLine.remaining] at hwords
  | cons line later ih =>
    cases layout' with
    | nil => simp [WordLine.remaining] at hwords
    | cons line' later' =>
      obtain ⟨hpending, hrest⟩ := List.cons.inj hwords
      obtain ⟨hroom, hbefore⟩ := h.first line rfl
      obtain ⟨hroom', hbefore'⟩ := h'.first line' rfl
      have hsound : line.IsSound := h.sound line (List.mem_cons_self ..)
      have hsound' : line'.IsSound := h'.sound line' (List.mem_cons_self ..)
      have hfirst : line.first = line'.first := by
        rw [hsound.first_eq, hsound'.first_eq, hpending, hroom, hroom']
      have hafter : line.after = line'.after := by
        rw [WordLine.pending, WordLine.pending, hfirst] at hpending
        exact List.append_cancel_left hpending
      have hlength := Nat.le_antisymm (h'.length_others_le h hfirst.symm hafter.symm hrest.symm)
        (h.length_others_le h' hfirst hafter hrest)
      obtain ⟨hothers, hbegun⟩ := List.append_inj hrest hlength
      obtain rfl : line = line' := by
        cases line
        cases line'
        simp_all
      rw [ih h.tail h'.tail (by rw [h.remaining_tail, h'.remaining_tail, hbegun])]

end Fills

/-- The words of a text have one greedy layout. -/
theorem IsGreedy.unique {room laterRoom : Nat} {words : List Text} {layout layout' : List WordLine}
    (h : IsGreedy room laterRoom words layout) (h' : IsGreedy room laterRoom words layout') :
    layout = layout' := by
  apply h.toFills.unique h'.toFills
  rw [h.remaining_eq_begun, h'.remaining_eq_begun, h.words, h'.words]

/-! ### Pieces of words as words of their own -/

namespace WordLine

/-- The line with the part of its first word as a whole word. -/
def alone (line : WordLine) : WordLine :=
  { line with before := [], after := [] }

/-- A line has the same text when its first piece counts as a word. -/
@[simp] theorem text_alone (line : WordLine) : line.alone.text = line.text := rfl

/-- A line begins with its first piece when that counts as a word. -/
theorem begun_alone (line : WordLine) : line.alone.begun = line.first :: line.others := by
  simp [begun, alone, pending]

/-- A sound line stays sound when its first piece counts as a word. -/
theorem IsSound.alone {line : WordLine} (h : line.IsSound) : line.alone.IsSound :=
  { started := h.started
    inked := h.inked
    fits := h.fits
    split := fun hafter => absurd rfl hafter }

/-- A line has no room for the first word of the next one, nor for the part of it that stands
there. -/
theorem Precedes.alone {line next : WordLine} (h : line.Precedes next) (hline : line.IsSound)
    (hnext : next.IsSound) (hroom : next.room = line.room) (hordinary : Text.IsOrdinary line.text)
    (hordinaryNext : Text.IsOrdinary next.text) : line.alone.Precedes next.alone := by
  obtain ⟨hfirst, _⟩ := Text.isOrdinary_append.mp hordinary
  obtain ⟨hfirstNext, _⟩ := Text.isOrdinary_append.mp hordinaryNext
  have hcells : Text.cells line.first ≠ 0 := mt hfirst.cells_eq_zero_iff.mp hline.started
  have hcellsNext : Text.cells next.first ≠ 0 := mt hfirstNext.cells_eq_zero_iff.mp hnext.started
  have htext : Text.cells line.first ≤ Text.cells line.text := by
    rw [text, Text.cells_append]
    omega
  have hover : line.room < Text.cells (line.text ++ ' ' :: next.first) := by
    rw [Text.cells_append, Text.cells_cons, Text.charWidth_space]
    by_cases hafter : line.after = []
    · obtain ⟨_, hpending⟩ := (precedes_iff_of_whole hafter).mp h
      by_cases hafterNext : next.after = []
      · rw [pending, hafterNext, List.append_nil] at hpending
        rwa [Text.cells_append, Text.cells_cons, Text.charWidth_space] at hpending
      · have hle := hnext.room_le hafterNext
        omega
    · have hle := hline.room_le hafter
      omega
  have hpending : next.alone.pending = next.first := List.append_nil _
  rw [precedes_iff_of_whole rfl, hpending]
  exact ⟨rfl, hover⟩

end WordLine

/-- Where the first line and later ones are to have the same room, every line has it. -/
theorem Fills.room_eq {room : Nat} {before : Text} {layout : List WordLine}
    (h : Fills room room before layout) : ∀ line ∈ layout, line.room = room := by
  induction layout generalizing before with
  | nil => simp
  | cons line later ih =>
    obtain ⟨hroom, _⟩ := h.first line rfl
    exact List.forall_mem_cons.mpr ⟨hroom, ih h.tail⟩

/-- Lines of the same room stay a greedy layout when each piece of a word is taken for a word. -/
theorem IsGreedy.alone {room : Nat} {words : List Text} {layout : List WordLine}
    (h : IsGreedy room room words layout)
    (hordinary : ∀ line ∈ layout, Text.IsOrdinary line.text) :
    IsGreedy room room (layout.flatMap fun line => line.first :: line.others)
      (layout.map WordLine.alone) := by
  have hroom := h.room_eq
  have hsound := h.sound
  refine ⟨⟨?_, ?_, ?_, ?_⟩, ?_⟩
  · intro line hline
    rw [List.head?_map] at hline
    obtain ⟨first, hfirst, rfl⟩ := Option.map_eq_some_iff.mp hline
    exact ⟨(h.first first hfirst).1, rfl⟩
  · rw [List.isChain_map]
    refine h.later.imp_of_mem_imp fun line next hline hnext hfollows => ?_
    obtain ⟨hnextRoom, hprecedes⟩ := hfollows
    have hsame : next.room = line.room := by rw [hnextRoom, hroom line hline]
    exact ⟨hnextRoom, hprecedes.alone (hsound line hline) (hsound next hnext) hsame
      (hordinary line hline) (hordinary next hnext)⟩
  · intro line hline
    rw [List.getLast?_map] at hline
    obtain ⟨last, _, rfl⟩ := Option.map_eq_some_iff.mp hline
    rfl
  · intro line hline
    obtain ⟨other, hother, rfl⟩ := List.mem_map.mp hline
    exact (hsound other hother).alone
  · rw [List.flatMap_map]
    apply List.flatMap_congr
    intro line _
    exact line.begun_alone

/-! ### Wrapped lines wrapped once more -/

namespace Text

/-- Each line of a wrapped plain text is plain ordinary text. -/
theorem draws_of_mem_wrapped {text line : Text} (h : text.IsWrappable) (hbare : '[' ∉ text)
    {room laterRoom : Nat} (hline : line ∈ wrapped room laterRoom text) :
    Markup.Draws line line := by
  by_cases hnone : words text = []
  · rw [wrapped_of_words_eq_nil hnone, List.mem_singleton] at hline
    rw [hline]
    exact Markup.Draws.nil
  · rw [wrapped_of_words_ne_nil hnone] at hline
    obtain ⟨spans, hspans, rfl⟩ := List.mem_map.mp hline
    have hdrawable := (Markup.pack_keeps room laterRoom _).drawable (Markup.drawable_words h hbare)
    have hdrawn := Markup.drawable_flatten.mp hdrawable spans hspans
    exact ⟨.of_bare hdrawn.bare hdrawn.bare, hdrawn.ordinary⟩

/-- The lines of a wrapped plain text, joined by spaces, are plain ordinary text. -/
theorem draws_joined_wrapped {text : Text} (h : text.IsWrappable) (hbare : '[' ∉ text)
    (room laterRoom : Nat) :
    Markup.Draws (joined [' '] (wrapped room laterRoom text))
      (joined [' '] (wrapped room laterRoom text)) := by
  apply Markup.Draws.joined (Markup.Draws.spaces 1)
  rw [List.forall₂_same]
  exact fun line hline => draws_of_mem_wrapped h hbare hline

/-- The words of a line are the part of its first word that stands on it, and its other words. -/
theorem words_of_layout {text : Text} {room laterRoom : Nat} {layout : List WordLine}
    (h : IsGreedy room laterRoom (words text) layout) {line : WordLine} (hline : line ∈ layout) :
    words line.text = line.first :: line.others := by
  have hsound := h.sound line hline
  apply words_spaced
  refine List.forall_mem_cons.mpr ⟨⟨hsound.started, hsound.inked⟩, ?_⟩
  intro word hword
  have hbegun : word ∈ line.begun := by
    rw [WordLine.begun]
    split
    · exact List.mem_cons_of_mem _ hword
    · exact hword
  have hmem : word ∈ words text := by
    rw [← h.words]
    exact List.mem_flatMap.mpr ⟨line, hline, hbegun⟩
  exact of_mem_words (fun c _ hblank => hblank) hmem

/-- The words of joined lines are the pieces that begin them and the words behind these. -/
theorem words_joined_layout {text : Text} {room laterRoom : Nat} {layout : List WordLine}
    (h : IsGreedy room laterRoom (words text) layout) :
    words (joined [' '] (layout.map WordLine.text)) =
      layout.flatMap fun line => line.first :: line.others := by
  rw [words_joined, List.flatMap_map]
  apply List.flatMap_congr
  intro line hline
  exact words_of_layout h hline

/-- Lines of one room stay as they are when they are joined and wrapped to that room again. -/
theorem wrapped_joined_wrapped {text : Text} (h : text.IsWrappable) (hbare : '[' ∉ text)
    {room : Nat} (hroom : 1 ≤ room) :
    wrapped room room (joined [' '] (wrapped room room text)) = wrapped room room text := by
  obtain ⟨layout, hgreedy, hwrapped⟩ := wrapped_greedy h hbare hroom hroom
  have hjoined := draws_joined_wrapped h hbare room room
  by_cases hnone : layout = []
  · rw [if_pos hnone] at hwrapped
    rw [hwrapped]
    exact wrapped_of_words_eq_nil rfl room room
  · rw [if_neg hnone] at hwrapped
    rw [hwrapped] at hjoined ⊢
    have hordinary : ∀ line ∈ layout, IsOrdinary line.text := by
      intro line hline
      have hmem : line.text ∈ wrapped room room text := by
        rw [hwrapped]
        exact List.mem_map_of_mem hline
      exact (draws_of_mem_wrapped h hbare hmem).ordinary
    -- The pieces that the lines hold are the words of the second run.
    have halone := hgreedy.alone hordinary
    rw [← words_joined_layout hgreedy] at halone
    obtain ⟨again, hagain, hwrappedAgain⟩ :=
      wrapped_greedy hjoined.ordinary.isWrappable hjoined.shows.lacks hroom hroom
    obtain rfl := hagain.unique halone
    rw [hwrappedAgain, if_neg (by simpa using hnone), List.map_map]
    exact List.map_congr_left fun line _ => line.text_alone

end Text

namespace Markup

/-- Spans without tags are written as their text. -/
theorem join_of_tags_eq_nil {spans : List Span} (h : tags spans = []) :
    join spans = plainText spans := by
  induction spans with
  | nil => rfl
  | cons span later ih =>
    cases span with
    | text content =>
      rw [tags_text] at h
      rw [join_cons, plainText_cons, ih h]
      rfl
    | opening name => simp at h
    | closing name => simp at h

/-- Without tags a rebalanced slice is written as its text. -/
theorem join_rebalance_of_tags_eq_nil {spans : List Span} (h : tags spans = []) :
    join (rebalance spans) = plainText spans := by
  have hnested : openAfter [] spans = some [] := by
    rw [← openAfter_tags, h]
    rfl
  have hnone : tags (rebalance spans) = [] := by
    rw [tags, List.filter_eq_nil_iff] at h ⊢
    intro span hspan
    rw [rebalance_of_nested hnested] at hspan
    exact h span (mem_of_mem_prune spans hspan)
  rw [join_of_tags_eq_nil hnone, plainText_rebalance]

/-- Lines without tags are balanced already. -/
theorem balanceLines_of_tags_eq_nil {lines : List (List Span)} (h : tags lines.flatten = []) :
    balanceLines [] lines = lines.map plainText := by
  induction lines with
  | nil => rfl
  | cons line later ih =>
    rw [List.flatten_cons, tags_append, List.append_eq_nil_iff] at h
    obtain ⟨hline, hlater⟩ := h
    have hrun : openAfter [] line = some [] := by
      rw [← openAfter_tags, hline]
      rfl
    rw [balanceLines, List.map_nil, List.nil_append, openTags_of_openAfter hrun, List.reverse_nil,
      join_rebalance_of_tags_eq_nil hline, ih hlater, List.map_cons]

/-- A text without brackets is read without tags. -/
theorem tags_of_parse_bare {text : Text} (hbare : '[' ∉ text) {spans : List Span}
    (h : parse text = .ok spans) : tags spans = [] := by
  rw [parse, if_neg (by simpa using hbare)] at h
  split at h
  · obtain rfl := Except.ok.inj h
    exact tags_nil
  · obtain rfl := Except.ok.inj h
    rw [tags_text, tags_nil]

/-- Texts without brackets that show others are these. -/
theorem eq_of_draws_bare {texts plains : List Text} (h : List.Forall₂ Draws texts plains)
    (hbare : ∀ text ∈ texts, '[' ∉ text) : texts = plains := by
  induction h with
  | nil => rfl
  | cons hfirst _ ih =>
    obtain ⟨hbareFirst, hbareLater⟩ := List.forall_mem_cons.mp hbare
    have hself := (ShowsWithout.of_bare hbareFirst hbareFirst).strip_eq
    rw [hfirst.shows.strip_eq] at hself
    rw [Except.ok.inj hself, ih hbareLater]

/-- An indent of nothing leaves lines as they are. -/
theorem indentRest_nil (lines : List Text) : indentRest [] lines = lines := by
  cases lines <;> simp [indentRest]

/-- A text without brackets is wrapped as plain text. -/
theorem wrap_of_bare {text : Text} (h : text.IsWrappable) (hbare : '[' ∉ text) {width : Int}
    (hwidth : 1 ≤ width) :
    wrap text width = .ok (Text.wrapped width.toNat width.toNat text) := by
  obtain ⟨spans, hparse, hlegible, _, rfl⟩ := (ShowsWithout.of_bare hbare hbare).exists_parse
  obtain ⟨bodies, hbodies, hdraws⟩ :=
    wrapSpans_draws hlegible h (by omega : 0 < width) (by omega : 0 < width)
  obtain ⟨lead, lines, hlines, hkeeps, _, hlead⟩ := wrapSpans_spec spans width 0
  have hkept := hkeeps.trans (words_keeps spans)
  have htags := hkept.tags.trans (tags_of_parse_bare hbare hparse)
  have hspaces : Text.spaces 0 = [] := rfl
  rw [hlead (by omega) (by omega), hbodies, hspaces, indentRest_nil, indentRest_nil,
    balanceLines_of_tags_eq_nil htags] at hlines
  have hlacks : ∀ body ∈ bodies, '[' ∉ body := by
    intro body hbody
    rw [hlines] at hbody
    obtain ⟨line, hline, rfl⟩ := List.mem_map.mp hbody
    exact hkept.lacks_of_mem (Or.inl rfl) hbare hline
  rw [Int.sub_zero] at hdraws
  rw [wrap, wrapIndent, hparse, ← eq_of_draws_bare hdraws hlacks, ← indentRest_nil bodies,
    ← hspaces, ← hbodies]
  rfl

/-- Wrapping the lines of a wrapped text again, joined by spaces, gives the same lines. -/
theorem wrap_wrap {text : Text} (h : text.IsWrappable) (hbare : '[' ∉ text) {width : Int}
    (hwidth : 1 ≤ width) :
    ∃ lines, wrap text width = .ok lines ∧ wrap (Text.joined [' '] lines) width = .ok lines := by
  refine ⟨_, wrap_of_bare h hbare hwidth, ?_⟩
  have hdraws := Text.draws_joined_wrapped h hbare width.toNat width.toNat
  rw [wrap_of_bare hdraws.ordinary.isWrappable hdraws.shows.lacks hwidth,
    Text.wrapped_joined_wrapped h hbare (by omega)]

/-- Words that are broken, some of them behind a wide glyph that leaves a cell free, and blanks of
several kinds. -/
def brokenNote : Text :=
  " 日本語\tabcdefg  h\n日x日 ".toList

/-- A note with a broken word is wrapped to the same lines again. -/
theorem wrap_wrap_brokenNote :
    brokenNote.IsWrappable ∧ '[' ∉ brokenNote ∧ (1 : Int) ≤ 3 ∧
      ∃ lines, wrap brokenNote 3 = .ok lines ∧ wrap (Text.joined [' '] lines) 3 = .ok lines := by
  have hwrappable : brokenNote.IsWrappable := by decide +kernel
  have hbare : '[' ∉ brokenNote := by decide +kernel
  exact ⟨hwrappable, hbare, by omega, wrap_wrap hwrappable hbare (by omega)⟩

example : wrap brokenNote 3 = .ok ["日".toList, "本".toList, "語".toList, "abc".toList, "def".toList,
    "g h".toList, "日x".toList, "日".toList] := by
  decide +kernel

end Markup

end TextGrid
