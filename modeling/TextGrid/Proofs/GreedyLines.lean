import Mathlib.Data.List.Chain
import TextGrid.Proofs.Wrapping

/-!
# Greedy lines

Wrapped words go onto a line as long as they fit, and a word is broken only where it is wider than
the line that it starts on (`wrapIndent_greedy`). A line says how many cells it has, which words
begin on it, and how much of its first word stands on other lines; from this the whole layout is
told.
-/

namespace TextGrid

/-! ### Lines of words -/

/-- A line of words: it has `room` cells, begins with all or a part of a word, `first`, of which
`before` stands on the lines before it and `after` on those behind it, and goes on with whole
words. -/
structure WordLine where
  room : Nat
  before : Text
  first : Text
  after : Text
  others : List Text
  deriving DecidableEq, Repr

namespace WordLine

/-- The text of the line, with a space between words. -/
def text (line : WordLine) : Text :=
  line.first ++ line.others.flatMap (' ' :: ·)

/-- What the lines before it leave of the first word. -/
def pending (line : WordLine) : Text :=
  line.first ++ line.after

/-- The words that begin on the line. -/
def begun (line : WordLine) : List Text :=
  if line.before = [] then line.pending :: line.others else line.others

/-- The line with one more word. -/
def push (line : WordLine) (word : Text) : WordLine :=
  { line with others := line.others ++ [word] }

/-- Whether a line fits, unless it is one glyph that no line of its room can hold, and breaks its
first word only if that is too wide, behind the longest part that fits. -/
structure IsSound (line : WordLine) : Prop where
  started : line.first ≠ []
  inked : ∀ c ∈ line.first, Text.isBlank c = false
  fits : Text.cells line.text ≤ line.room ∨
    line.room = 1 ∧ ∃ c, line.text = [c] ∧ Cluster.charWidth c = 2
  split : line.after ≠ [] → line.others = [] ∧ line.room < Text.cells line.pending ∧
    ∀ part, part <+: line.pending → Text.cells part ≤ line.room → part <+: line.first

/-- Whether a line ends where the next one begins: with a word that has no room behind it, or within
the word that the next line goes on with. -/
def Precedes (line next : WordLine) : Prop :=
  if line.after = [] then
    next.before = [] ∧ line.room < Text.cells (line.text ++ ' ' :: next.pending)
  else next.before = line.before ++ line.first ∧ next.pending = line.after

/-- A word that is put on a line stands behind a space. -/
@[simp] theorem text_push (line : WordLine) (word : Text) :
    (line.push word).text = line.text ++ ' ' :: word := by
  simp [text, push]

/-- A word that is put on a line is the last one that is begun there. -/
@[simp] theorem begun_push (line : WordLine) (word : Text) :
    (line.push word).begun = line.begun ++ [word] := by
  by_cases hbefore : line.before = [] <;> simp [begun, push, pending, hbefore]

end WordLine

/-- Whether lines are sound, follow each other, and end with a whole word. The first one has `room`
cells and goes on with a word of which `before` stands on other lines; the later ones have
`laterRoom` cells. -/
structure Fills (room laterRoom : Nat) (before : Text) (layout : List WordLine) : Prop where
  first : ∀ line ∈ layout.head?, line.room = room ∧ line.before = before
  later : layout.IsChain fun line next => next.room = laterRoom ∧ line.Precedes next
  last : ∀ line ∈ layout.getLast?, line.after = []
  sound : ∀ line ∈ layout, line.IsSound

/-- Whether lines hold words in order, each line as many as fit. -/
structure IsGreedy (room laterRoom : Nat) (words : List Text) (layout : List WordLine) : Prop
    extends Fills room laterRoom [] layout where
  words : layout.flatMap WordLine.begun = words

namespace IsGreedy

variable {room laterRoom : Nat} {words : List Text} {done : List WordLine} {last : WordLine}

/-- A word that fits behind the last line's words goes there. -/
theorem push (h : IsGreedy room laterRoom words (done ++ [last])) {word : Text}
    (hfits : Text.cells (last.text ++ ' ' :: word) ≤ last.room) :
    IsGreedy room laterRoom (words ++ [word]) (done ++ [last.push word]) := by
  have hlast : last.after = [] := h.last last (by simp)
  have hsound : last.IsSound := h.sound last (by simp)
  obtain ⟨hchain, _, hjoin⟩ := List.isChain_append.mp h.later
  refine ⟨⟨?_, ?_, ?_, ?_⟩, ?_⟩
  · intro line hline
    cases done with
    | nil =>
      obtain rfl : last.push word = line := by simpa using hline
      exact h.first last rfl
    | cons front others => exact h.first line hline
  · refine List.isChain_append.mpr ⟨hchain, List.isChain_singleton _, ?_⟩
    intro line hline next hnext
    obtain rfl : last.push word = next := by simpa using hnext
    exact hjoin line hline last rfl
  · intro line hline
    obtain rfl : last.push word = line := by simpa using hline
    exact hlast
  · intro line hline
    rcases List.mem_append.mp hline with hmem | hmem
    · exact h.sound line (List.mem_append_left _ hmem)
    · obtain rfl := List.mem_singleton.mp hmem
      exact
        { started := hsound.started
          inked := hsound.inked
          fits := Or.inl (by rwa [WordLine.text_push])
          split := fun hafter => absurd hlast hafter }
  · rw [← h.words]
    simp

/-- Lines of further words go behind the last line if it has no room for the first of them. -/
theorem append (h : IsGreedy room laterRoom words (done ++ [last])) {others : List Text}
    {lines : List WordLine} (hlines : IsGreedy laterRoom laterRoom others lines)
    (hne : lines ≠ [])
    (hover : ∀ next ∈ lines.head?,
      last.room < Text.cells (last.text ++ ' ' :: next.pending)) :
    IsGreedy room laterRoom (words ++ others) (done ++ [last] ++ lines) := by
  have hlast : last.after = [] := h.last last (by simp)
  refine ⟨⟨?_, ?_, ?_, ?_⟩, ?_⟩
  · intro line hline
    rw [List.head?_append_of_ne_nil _ (by simp)] at hline
    exact h.first line hline
  · refine List.isChain_append.mpr ⟨h.later, hlines.later, ?_⟩
    intro line hline next hnext
    obtain rfl : last = line := by simpa using hline
    obtain ⟨hroom, hbefore⟩ := hlines.first next hnext
    refine ⟨hroom, ?_⟩
    rw [WordLine.Precedes, if_pos hlast]
    exact ⟨hbefore, hover next hnext⟩
  · rw [List.getLast?_append_of_ne_nil _ hne]
    exact hlines.last
  · exact List.forall_mem_append.mpr ⟨h.sound, hlines.sound⟩
  · rw [List.flatMap_append, h.words, hlines.words]

end IsGreedy

/-! ### The lines of one word -/

namespace Text

/-- A forced cut of an ordinary text keeps the longest part that fits, or a first glyph that fits in
no line of the room. -/
theorem fitting_true_spec {text : Text} (hne : text ≠ []) (hordinary : IsOrdinary text)
    {room : Nat} (hroom : 1 ≤ room) :
    let head := fitting true room text
    head ≠ [] ∧ (cells head ≤ room ∨ room = 1 ∧ ∃ c, head = [c] ∧ Cluster.charWidth c = 2) ∧
      ∀ part, part <+: text → cells part ≤ room → part <+: head := by
  obtain ⟨c, rest, rfl⟩ := List.exists_cons_of_ne_nil hne
  have htwo := Cluster.charWidth_le_two c
  have hhead : fitting true room (c :: rest) =
      c :: fitting false (room - Cluster.charWidth c) rest := by
    simp [fitting]
  rw [hhead]
  refine ⟨List.cons_ne_nil _ _, ?_, ?_⟩
  · by_cases hfits : Cluster.charWidth c ≤ room
    · have hrest : (0 : Int) ≤ room - Cluster.charWidth c := by omega
      have hle := cells_fitting_le hrest rest
      left
      rw [cells_cons]
      omega
    · right
      have hnone : fitting false (room - Cluster.charWidth c) rest = [] := by
        cases rest with
        | nil => rfl
        | cons next others => rw [fitting, if_pos ⟨by omega, rfl⟩]
      exact ⟨by omega, c, by rw [hnone], by omega⟩
  · intro part hpart hcells
    cases part with
    | nil => exact List.nil_prefix
    | cons first later =>
      obtain ⟨rfl, hlater⟩ := List.cons_prefix_cons.mp hpart
      rw [cells_cons] at hcells
      exact (List.prefix_cons_inj first).mpr (isPrefix_fitting_of_le hlater (by omega))

end Text

/-- Whether lines hold one word, of which `before` stands on earlier lines and `word` is left. -/
structure Breaks (room laterRoom : Nat) (before word : Text) (layout : List WordLine) : Prop
    extends Fills room laterRoom before layout where
  pending : ∃ line ∈ layout.head?, line.pending = word
  begun : layout.flatMap WordLine.begun = if before = [] then [word] else []

namespace Breaks

variable {room laterRoom : Nat} {before word : Text}

/-- The rest of a word takes one line if it fits, or if it is a glyph that fits in no line. -/
theorem singleton (hword : word ≠ []) (hinked : ∀ c ∈ word, Text.isBlank c = false)
    (hfits : Text.cells word ≤ room ∨ room = 1 ∧ ∃ c, word = [c] ∧ Cluster.charWidth c = 2) :
    Breaks room laterRoom before word [⟨room, before, word, [], []⟩] := by
  have hsound : WordLine.IsSound ⟨room, before, word, [], []⟩ :=
    { started := hword
      inked := hinked
      fits := by simpa [WordLine.text] using hfits
      split := fun hafter => absurd rfl hafter }
  exact
    { first := by simp
      later := List.isChain_singleton _
      last := by simp
      sound := by simpa using hsound
      pending := ⟨_, rfl, by simp [WordLine.pending]⟩
      begun := by simp [WordLine.begun, WordLine.pending] }

/-- A line goes before the lines of what is left of its word. -/
theorem cons {line : WordLine} {layout : List WordLine} (hsound : line.IsSound)
    (hafter : line.after ≠ []) (hothers : line.others = [])
    (h : Breaks laterRoom laterRoom (line.before ++ line.first) line.after layout) :
    Breaks line.room laterRoom line.before line.pending (line :: layout) := by
  obtain ⟨next, hnext, hpending⟩ := h.pending
  obtain ⟨rest, rfl⟩ : ∃ rest, layout = next :: rest := List.head?_eq_some_iff.mp hnext
  obtain ⟨hroom, hbefore⟩ := h.first next rfl
  have hwithin : line.before ++ line.first ≠ [] := by simp [hsound.started]
  have hnone := h.begun
  rw [if_neg hwithin] at hnone
  refine ⟨⟨?_, ?_, ?_, ?_⟩, ⟨line, rfl, rfl⟩, ?_⟩
  · intro found hfound
    obtain rfl : line = found := by simpa using hfound
    exact ⟨rfl, rfl⟩
  · refine List.isChain_cons_cons.mpr ⟨⟨hroom, ?_⟩, h.later⟩
    rw [WordLine.Precedes, if_neg hafter]
    exact ⟨hbefore, hpending⟩
  · rw [List.getLast?_cons_cons]
    exact h.last
  · exact List.forall_mem_cons.mpr ⟨hsound, h.sound⟩
  · rw [List.flatMap_cons, hnone, List.append_nil, WordLine.begun, hothers]

/-- The lines of a whole word. -/
theorem isGreedy {layout : List WordLine} (h : Breaks room laterRoom [] word layout) :
    IsGreedy room laterRoom [word] layout :=
  ⟨h.toFills, h.begun⟩

end Breaks

/-! ### Words packed so far -/

/-- How lines stand while words are packed: the last one is still being filled, or it is one glyph
that fits in no line of its room and a line of `laterRoom` cells is to follow. -/
inductive Stands (laterRoom : Nat) (lines : List Text) (current : Text) (room : Nat)
    (layout : List WordLine) : Prop
  | filling (done : List WordLine) (last : WordLine) (layout_eq : layout = done ++ [last])
    (lines_eq : lines = done.map WordLine.text) (current_eq : current = last.text)
    (room_eq : room = last.room) (started : current ≠ [])
  | full (done : List WordLine) (last : WordLine) (layout_eq : layout = done ++ [last])
    (lines_eq : lines = layout.map WordLine.text) (current_eq : current = [])
    (room_eq : room = laterRoom) (wide : last.room < Text.cells last.text)

/-- Lines before the others do not change how these stand. -/
theorem Stands.append {laterRoom room : Nat} {lines : List Text} {current : Text}
    {layout : List WordLine} (h : Stands laterRoom lines current room layout)
    (before : List WordLine) :
    Stands laterRoom (before.map WordLine.text ++ lines) current room (before ++ layout) := by
  cases h with
  | filling done last hlayout hlines hcurrent hroom hstarted =>
    refine .filling (before ++ done) last ?_ ?_ hcurrent hroom hstarted
    · rw [hlayout, List.append_assoc]
    · rw [hlines, List.map_append]
  | full done last hlayout hlines hcurrent hroom hover =>
    refine .full (before ++ done) last ?_ ?_ hcurrent hroom hover
    · rw [hlayout, List.append_assoc]
    · rw [hlines, List.map_append]

namespace Markup

/-- A word of which a cut leaves nothing over takes one line, and another one is to follow. -/
theorem breakWord_of_tail_eq_nil {room : Nat} (laterRoom : Nat) {spans : List Span}
    (h : Drawable spans) (hover : ¬ spansWidth spans ≤ room)
    (hempty : plainText (split room true spans).tail = []) :
    breakWord room laterRoom spans =
      ⟨[(split room true spans).head], (split room true spans).tail, laterRoom⟩ := by
  obtain ⟨_, _, hparts⟩ := split_spec h room
  have hfits : spansWidth (split room true spans).tail ≤ laterRoom := by
    rw [(drawable_append.mp hparts).2.width_eq, hempty]
    exact Nat.zero_le _
  rw [breakWord, dif_neg hover]
  dsimp only
  rw [breakWord, dif_pos hfits]

/-- Breaking a word gives the lines of the word. -/
theorem breakWord_breaks (room laterRoom : Nat) {spans : List Span} (before : Text)
    (hroom : 1 ≤ room) (hlater : 1 ≤ laterRoom) (h : Drawable spans) (hword : plainText spans ≠ [])
    (hinked : ∀ c ∈ plainText spans, Text.isBlank c = false) :
    let broken := breakWord room laterRoom spans
    ∃ layout, Breaks room laterRoom before (plainText spans) layout ∧
      Stands laterRoom (broken.lines.map plainText) (plainText broken.rest) broken.room layout := by
  induction room, spans using breakWord.induct laterRoom generalizing before with
  | case1 room spans hfits =>
    have hcells : Text.cells (plainText spans) ≤ room := by rwa [← h.width_eq]
    have hbreaks : Breaks room laterRoom before (plainText spans) [⟨room, before, _, [], []⟩] :=
      Breaks.singleton hword hinked (Or.inl hcells)
    rw [breakWord, dif_pos hfits]
    refine ⟨_, hbreaks, .filling [] _ rfl rfl ?_ rfl hword⟩
    simp [WordLine.text]
  | case2 room spans hover parts ih =>
    obtain ⟨hfitting, hwhole, hparts⟩ := split_spec h room
    have hspec := Text.fitting_true_spec hword h.ordinary hroom
    rw [← hfitting] at hspec
    obtain ⟨hstarted, hfits, hlongest⟩ := hspec
    have hcells : room < Text.cells (plainText spans) := by rwa [h.width_eq, Nat.not_le] at hover
    by_cases hempty : plainText parts.tail = []
    · -- The word is one glyph that does not fit.
      have hall : plainText (split room true spans).head = plainText spans := by
        rw [← hwhole, hempty, List.append_nil]
      rw [hall] at hfits
      have hbreaks : Breaks room laterRoom before (plainText spans) [⟨room, before, _, [], []⟩] :=
        Breaks.singleton hword hinked hfits
      rw [breakWord_of_tail_eq_nil laterRoom h hover hempty]
      refine ⟨_, hbreaks, .full [] _ rfl ?_ hempty rfl ?_⟩
      · simp [WordLine.text, hall]
      · simpa [WordLine.text] using hcells
    · have hinkedParts : ∀ c ∈ plainText parts.head ++ plainText parts.tail,
          Text.isBlank c = false := by rwa [hwhole]
      obtain ⟨hinkedHead, hinkedTail⟩ := List.forall_mem_append.mp hinkedParts
      obtain ⟨later, hbreaks, hstands⟩ := ih (before ++ plainText parts.head) hlater
        (drawable_append.mp hparts).2 hempty hinkedTail
      have hsound : WordLine.IsSound
          ⟨room, before, plainText parts.head, plainText parts.tail, []⟩ :=
        { started := hstarted
          inked := hinkedHead
          fits := by simpa [WordLine.text] using hfits
          split := fun _ => by
            rw [WordLine.pending, hwhole]
            exact ⟨rfl, hcells, hlongest⟩ }
      have hcons := hbreaks.cons hsound hempty rfl
      rw [WordLine.pending, hwhole] at hcons
      have hall := hstands.append [⟨room, before, plainText parts.head, plainText parts.tail, []⟩]
      rw [breakWord, dif_neg hover]
      refine ⟨_, hcons, ?_⟩
      simpa [WordLine.text] using hall

/-! ### Packing words -/

namespace Packer

/-- Whether a packer has put words onto lines, each line as many as fit. -/
structure Packs (packer : Packer) (room laterRoom : Nat) (words : List Text)
    (layout : List WordLine) : Prop where
  greedy : IsGreedy room laterRoom words layout
  stands : Stands laterRoom (packer.lines.map plainText).reverse (plainText packer.current)
    packer.room layout
  used : packer.used = Text.cells (plainText packer.current)
  drawable : Drawable packer.spans

section Word

variable {packer : Packer} {laterRoom : Nat} {word : List Span} (hlater : 1 ≤ laterRoom)
  (hdrawable : Drawable word) (hword : plainText word ≠ [])
  (hinked : ∀ c ∈ plainText word, Text.isBlank c = false)

include hlater hdrawable hword hinked

/-- A word that is started on a fresh line takes the lines of the word. -/
theorem startLine_breaks (hroom : 1 ≤ packer.room) (hcurrent : plainText packer.current = [])
    (hpacker : Drawable packer.spans) (done : List WordLine)
    (hlines : (packer.lines.map plainText).reverse = done.map WordLine.text) :
    let started := packer.startLine laterRoom word
    ∃ layout, Breaks packer.room laterRoom [] (plainText word) layout ∧
      Stands laterRoom (started.lines.map plainText).reverse (plainText started.current)
        started.room (done ++ layout) ∧
      started.used = Text.cells (plainText started.current) ∧ Drawable started.spans := by
  intro started
  have hspans : Drawable (packer.current ++ word) :=
    drawable_append.mpr ⟨(drawable_append.mp hpacker).2, hdrawable⟩
  have hplain : plainText (packer.current ++ word) = plainText word := by
    rw [plainText_append, hcurrent, List.nil_append]
  have hstarted : Drawable started.spans :=
    (startLine_keeps packer laterRoom word).drawable (drawable_append.mpr ⟨hpacker, hdrawable⟩)
  obtain ⟨layout, hbreaks, hstands⟩ := breakWord_breaks packer.room laterRoom [] hroom hlater hspans
    (by rwa [hplain]) (by rwa [hplain])
  rw [hplain] at hbreaks
  refine ⟨layout, hbreaks, ?_, (drawable_append.mp hstarted).2.width_eq, hstarted⟩
  have hall := hstands.append done
  rw [← hlines] at hall
  simpa [started, startLine] using hall

/-- A word for which the last line has no room is started on the next one. -/
theorem startLine_packs {room : Nat} {words : List Text} {done : List WordLine} {last : WordLine}
    (hgreedy : IsGreedy room laterRoom words (done ++ [last])) (hroom : packer.room = laterRoom)
    (hcurrent : plainText packer.current = []) (hpacker : Drawable packer.spans)
    (hlines : (packer.lines.map plainText).reverse = (done ++ [last]).map WordLine.text)
    (hover : last.room < Text.cells (last.text ++ ' ' :: plainText word)) :
    ∃ layout, (packer.startLine laterRoom word).Packs room laterRoom (words ++ [plainText word])
      layout := by
  obtain ⟨layout, hbreaks, hstands, hused, hstarted⟩ := startLine_breaks hlater hdrawable hword
    hinked (by rwa [hroom]) hcurrent hpacker (done ++ [last]) hlines
  obtain ⟨next, hnext, hpending⟩ := hbreaks.pending
  rw [hroom] at hbreaks
  refine ⟨_, hgreedy.append hbreaks.isGreedy ?_ ?_, hstands, hused, hstarted⟩
  · rintro rfl
    cases hnext
  · intro found hfound
    obtain rfl : next = found := Option.some.inj (hnext.symm.trans hfound)
    rwa [hpending]

/-- One more word goes onto the last line if it fits there, and onto lines of its own if not. -/
theorem addWord_packs {room : Nat} {words : List Text} {layout : List WordLine}
    (h : packer.Packs room laterRoom words layout) :
    ∃ layout', (packer.addWord laterRoom word).Packs room laterRoom (words ++ [plainText word])
      layout' := by
  obtain ⟨hgreedy, hstands, hused, hpacker⟩ := h
  have htext := hasText_iff (drawable_append.mp hpacker).2.filled
  have hadded := (addWord_keeps packer laterRoom word).drawable
    (drawable_append.mpr ⟨hpacker, hdrawable⟩)
  cases hstands with
  | filling done last hlayout hlines hcurrent hroom hstarted =>
    subst hlayout
    have hspaced : Text.cells (last.text ++ ' ' :: plainText word) =
        packer.used + 1 + spansWidth word := by
      rw [Text.cells_append, Text.cells_cons, Text.charWidth_space, hused, hcurrent,
        hdrawable.width_eq, Nat.add_assoc]
    by_cases hfits : packer.used + 1 + spansWidth word ≤ packer.room
    · have hpush := hgreedy.push (by rw [hspaced, ← hroom]; exact hfits)
      rw [addWord, if_pos (htext.mpr hstarted)] at hadded ⊢
      simp only [if_pos hfits] at hadded ⊢
      have htextPush : plainText (packer.current ++ .text [' '] :: word) =
          (last.push (plainText word)).text := by
        simp [hcurrent, Span.content]
      refine ⟨_, hpush, .filling done _ rfl hlines htextPush hroom ?_, ?_, hadded⟩
      · simp [hstarted]
      · rw [htextPush, WordLine.text_push, hspaced]
    · rw [addWord, if_pos (htext.mpr hstarted)]
      simp only [if_neg hfits]
      refine startLine_packs hlater hdrawable hword hinked hgreedy rfl (by simp) ?_ ?_ ?_
      · simpa [spans] using hpacker
      · simp [hlines, hcurrent]
      · rw [hspaced, ← hroom]
        omega
  | full done last hlayout hlines hcurrent hroom hover =>
    subst hlayout
    have hnone : ¬ hasText packer.current = true := fun hsome => htext.mp hsome hcurrent
    rw [addWord, if_neg hnone]
    refine startLine_packs hlater hdrawable hword hinked hgreedy hroom hcurrent hpacker hlines ?_
    rw [Text.cells_append]
    omega

end Word

/-- Words that follow packed ones are packed. -/
theorem foldl_addWord_packs {packer : Packer} {room laterRoom : Nat} {words : List Text}
    {layout : List WordLine} {later : List (List Span)} (hlater : 1 ≤ laterRoom)
    (hdrawable : Drawable later.flatten)
    (hwords : ∀ word ∈ later, plainText word ≠ [] ∧ ∀ c ∈ plainText word, Text.isBlank c = false)
    (h : packer.Packs room laterRoom words layout) :
    ∃ layout', (later.foldl (addWord laterRoom) packer).Packs room laterRoom
      (words ++ later.map plainText) layout' := by
  induction later generalizing packer words layout with
  | nil => exact ⟨layout, by simpa using h⟩
  | cons word others ih =>
    obtain ⟨hword, hothers⟩ := List.forall_mem_cons.mp hwords
    obtain ⟨hdrawableWord, hdrawableOthers⟩ := drawable_append.mp hdrawable
    obtain ⟨layout', hadded⟩ := addWord_packs hlater hdrawableWord hword.1 hword.2 h
    have hall := ih hdrawableOthers hothers hadded
    rwa [List.append_assoc] at hall

/-- The lines of a packer are those that its words stand on. -/
theorem Packs.finish_eq {packer : Packer} {room laterRoom : Nat} {words : List Text}
    {layout : List WordLine} (h : packer.Packs room laterRoom words layout) :
    packer.finish.map plainText = layout.map WordLine.text := by
  cases h.stands with
  | filling done last hlayout hlines hcurrent hroom hstarted =>
    rw [map_finish (Or.inl hstarted) h.drawable, if_neg hstarted, hlines, hlayout, hcurrent,
      List.map_append, List.map_singleton]
  | full done last hlayout hlines hcurrent hroom hover =>
    have hsome : packer.lines ≠ [] := by
      intro hnone
      rw [hnone, hlayout] at hlines
      simp at hlines
    rw [map_finish (Or.inr hsome) h.drawable, if_pos hcurrent, hlines, List.append_nil]

end Packer

/-- Words are packed onto lines, each line with as many as fit. -/
theorem pack_greedy {room laterRoom : Nat} (hroom : 1 ≤ room) (hlater : 1 ≤ laterRoom)
    {words : List (List Span)} (hne : words ≠ []) (hdrawable : Drawable words.flatten)
    (hwords : ∀ word ∈ words, plainText word ≠ [] ∧ ∀ c ∈ plainText word, Text.isBlank c = false) :
    ∃ layout, IsGreedy room laterRoom (words.map plainText) layout ∧
      (pack room laterRoom words).map plainText = layout.map WordLine.text := by
  obtain ⟨first, later, rfl⟩ := List.exists_cons_of_ne_nil hne
  obtain ⟨hfirst, hothers⟩ := List.forall_mem_cons.mp hwords
  obtain ⟨hdrawableFirst, hdrawableLater⟩ := drawable_append.mp hdrawable
  have hstart : Drawable (Packer.mk [] [] 0 room).spans := drawable_nil
  obtain ⟨layout, hbreaks, hstands, hused, hstarted⟩ := Packer.startLine_breaks
    hlater hdrawableFirst hfirst.1 hfirst.2 hroom rfl hstart [] rfl
  rw [List.nil_append] at hstands
  have hpacks : ((Packer.mk [] [] 0 room).startLine laterRoom first).Packs room laterRoom
      [plainText first] layout := ⟨hbreaks.isGreedy, hstands, hused, hstarted⟩
  obtain ⟨layout', hall⟩ := Packer.foldl_addWord_packs hlater hdrawableLater hothers hpacks
  exact ⟨layout', hall.greedy, hall.finish_eq⟩

end Markup

namespace Text

/-- A plain text is wrapped to lines of its words, each line with as many as fit. -/
theorem wrapped_greedy {text : Text} (h : text.IsWrappable) (hbare : '[' ∉ text)
    {room laterRoom : Nat} (hroom : 1 ≤ room) (hlater : 1 ≤ laterRoom) :
    ∃ layout, IsGreedy room laterRoom (words text) layout ∧
      wrapped room laterRoom text = if layout = [] then [[]] else layout.map WordLine.text := by
  by_cases hnone : words text = []
  · have hempty : IsGreedy room laterRoom [] [] :=
      { first := by simp
        later := List.isChain_nil
        last := by simp
        sound := by simp
        words := rfl }
    rw [hnone, wrapped_of_words_eq_nil hnone]
    exact ⟨[], hempty, rfl⟩
  · have hwords : ∀ word ∈ (words text).map fun word => [Span.text word],
        Markup.plainText word ≠ [] ∧ ∀ c ∈ Markup.plainText word, isBlank c = false := by
      intro spans hspans
      obtain ⟨word, hword, rfl⟩ := List.mem_map.mp hspans
      simpa [Span.content] using of_mem_words (fun c _ hblank => hblank) hword
    obtain ⟨layout, hgreedy, hlines⟩ := Markup.pack_greedy hroom hlater (by simpa using hnone)
      (Markup.drawable_words h hbare) hwords
    rw [Markup.map_plainText_words] at hgreedy
    have hsome : layout ≠ [] := by
      rintro rfl
      exact hnone hgreedy.words.symm
    refine ⟨layout, hgreedy, ?_⟩
    rw [wrapped_of_words_ne_nil hnone, hlines, if_neg hsome]

end Text

namespace Markup

/-- An indent that leaves no room is dropped. -/
theorem wrapSpans_of_le (spans : List Span) {width indent : Int} (hwidth : 0 < width)
    (h : width ≤ indent) : wrapSpans spans width indent = wrapSpans spans width 0 := by
  have hroom : ¬ width ≤ 0 := by omega
  simp only [wrapSpans, if_neg hroom, if_pos h]

/-- Wrapping puts as many words on each line as fit behind the indent, and breaks a word only where
it is wider than the line that it starts on. -/
theorem wrapIndent_greedy {text plain : Text} (h : ShowsWithout '[' text plain)
    (hwrappable : plain.IsWrappable) {width : Int} (hwidth : 1 ≤ width) (indent : Int) :
    let kept := if indent < width then indent else 0
    ∃ bodies layout, wrapIndent text width indent = .ok (indentRest (Text.spaces kept) bodies) ∧
      IsGreedy width.toNat (width - kept).toNat (Text.words plain) layout ∧
      List.Forall₂ Draws bodies (if layout = [] then [[]] else layout.map WordLine.text) := by
  intro kept
  obtain ⟨spans, hparse, hlegible, _, rfl⟩ := h.exists_parse
  have hkept : kept < width := by
    simp only [kept]
    split <;> omega
  obtain ⟨bodies, hbodies, hdraws⟩ := wrapSpans_draws hlegible hwrappable (by omega) hkept
  obtain ⟨layout, hgreedy, hwrapped⟩ := Text.wrapped_greedy hwrappable h.lacks
    (by omega : 1 ≤ width.toNat) (by omega : 1 ≤ (width - kept).toNat)
  rw [hwrapped] at hdraws
  refine ⟨bodies, layout, ?_, hgreedy, hdraws⟩
  have hdropped : wrapSpans spans width indent = wrapSpans spans width kept := by
    simp only [kept]
    split
    · rfl
    · next hwide => exact wrapSpans_of_le spans (by omega) (Int.not_lt.mp hwide)
  rw [wrapIndent, hparse, ← hbodies, ← hdropped]
  rfl

/-- A word that takes the first line, and one that starts with a glyph wider than the later ones. -/
def narrowNote : Text :=
  "[b]ab 日[/b]c d".toList

/-- A note with a wide glyph is laid out greedily in two cells and one. -/
theorem wrapIndent_greedy_narrowNote :
    ShowsWithout '[' narrowNote "ab 日c d".toList ∧ Text.IsWrappable "ab 日c d".toList ∧
      (1 : Int) ≤ 2 ∧
      ∃ bodies layout, wrapIndent narrowNote 2 1 = .ok (indentRest (Text.spaces 1) bodies) ∧
        IsGreedy 2 1 (Text.words "ab 日c d".toList) layout ∧
        List.Forall₂ Draws bodies (if layout = [] then [[]] else layout.map WordLine.text) := by
  have hshows : ShowsWithout '[' narrowNote "ab 日c d".toList := by decide +kernel
  have hwrappable : Text.IsWrappable "ab 日c d".toList := by decide +kernel
  exact ⟨hshows, hwrappable, by omega, wrapIndent_greedy hshows hwrappable (by omega) 1⟩

example : wrapIndent narrowNote 2 1 =
    .ok ["[b]ab[/b]".toList, " [b]日[/b]".toList, " c".toList, " d".toList] := by
  decide +kernel

end Markup

end TextGrid
