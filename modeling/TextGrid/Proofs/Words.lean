import Mathlib.Data.List.TakeWhile
import TextGrid.Markup.Wrap
import TextGrid.Proofs.Fitting

/-!
# Words of shown text

The words of a marked-up text show the words of its plain text, whatever tags stand beside or inside
them, and together they hold all of its tags in order.
-/

namespace TextGrid

namespace Text

/-- The words read so far, last one first, and the word being read. -/
structure Reader where
  words : List Text
  current : Text
  deriving DecidableEq, Repr

namespace Reader

/-- Ends the current word, if there is one. -/
def endWord (reader : Reader) : Reader :=
  if reader.current = [] then reader else ⟨reader.current :: reader.words, []⟩

/-- Reads a code point: a blank ends a word. -/
def step (reader : Reader) (c : Char) : Reader :=
  if isBlank c then reader.endWord else { reader with current := reader.current ++ [c] }

/-- A word that has ended ends no further. -/
@[simp] theorem endWord_endWord (reader : Reader) : reader.endWord.endWord = reader.endWord := by
  unfold endWord
  split <;> simp_all

/-- Code points that are not blank all go to the current word. -/
theorem foldl_step_of_notBlank {word : Text} (h : ∀ c ∈ word, isBlank c = false)
    (reader : Reader) :
    word.foldl step reader = { reader with current := reader.current ++ word } := by
  induction word generalizing reader with
  | nil => simp
  | cons c rest ih =>
    rw [List.foldl_cons, ih fun d hd => h d (List.mem_cons_of_mem c hd)]
    simp [step, h c (List.mem_cons_self ..)]

/-- Blanks behind the end of a word change nothing. -/
theorem foldl_step_of_blank {blanks : Text} (h : ∀ c ∈ blanks, isBlank c = true)
    (reader : Reader) : blanks.foldl step reader.endWord = reader.endWord := by
  induction blanks with
  | nil => rfl
  | cons c rest ih =>
    rw [List.foldl_cons, step, if_pos (h c (List.mem_cons_self ..)), endWord_endWord,
      ih fun d hd => h d (List.mem_cons_of_mem c hd)]

end Reader

/-- The words of a plain text: the code points between blanks. -/
def words (text : Text) : List Text :=
  (text.foldl Reader.step ⟨[], []⟩).endWord.words.reverse

namespace Reader

/-- Whether no word is empty, and every code point read has a property. -/
def Holds (property : Char → Prop) (reader : Reader) : Prop :=
  (∀ word ∈ reader.words, word ≠ [] ∧ ∀ c ∈ word, property c) ∧ ∀ c ∈ reader.current, property c

/-- What holds of all code points read holds when a word ends. -/
theorem Holds.endWord {property : Char → Prop} {reader : Reader} (h : reader.Holds property) :
    reader.endWord.Holds property := by
  unfold Reader.endWord
  split
  · exact h
  · next hcurrent => exact ⟨List.forall_mem_cons.mpr ⟨⟨hcurrent, h.2⟩, h.1⟩, by simp⟩

/-- What holds of all code points that are not blank holds of those read. -/
theorem Holds.foldl_step {property : Char → Prop} {reader : Reader} {text : Text}
    (h : reader.Holds property) (htext : ∀ c ∈ text, isBlank c = false → property c) :
    (text.foldl step reader).Holds property := by
  induction text generalizing reader with
  | nil => exact h
  | cons c rest ih =>
    obtain ⟨hc, hrest⟩ := List.forall_mem_cons.mp htext
    refine ih ?_ hrest
    unfold step
    split
    · exact h.endWord
    · next hblank =>
      refine ⟨h.1, List.forall_mem_append.mpr ⟨h.2, ?_⟩⟩
      simpa using hc (by simpa using hblank)

end Reader

/-- No word is empty, and what can be said of every code point of a text that is no blank can be
said of every code point of its words. -/
theorem of_mem_words {text word : Text} {property : Char → Prop}
    (htext : ∀ c ∈ text, isBlank c = false → property c) (h : word ∈ words text) :
    word ≠ [] ∧ ∀ c ∈ word, property c := by
  have hstart : Reader.Holds property ⟨[], []⟩ := ⟨by simp, by simp⟩
  exact (hstart.foldl_step htext).endWord.1 word (List.mem_reverse.mp h)

/-- A text without blanks is one piece. -/
theorem pieces_of_notBlank {text : Text} (h : text.dropWhile (!isBlank ·) = []) :
    pieces text = [text] := by
  rw [pieces]
  split
  · rfl
  · next hcons => exact absurd (h.symm.trans hcons) (by simp)

/-- A text with blanks has a piece before the first of them, and the pieces behind it. -/
theorem pieces_of_blank {text rest : Text} {c : Char}
    (h : text.dropWhile (!isBlank ·) = c :: rest) :
    pieces text = text.takeWhile (!isBlank ·) :: pieces (rest.dropWhile isBlank) := by
  rw [pieces]
  split
  · next hnil => exact absurd (h.symm.trans hnil) (by simp)
  · next first later hcons =>
    obtain ⟨_, rfl⟩ := List.cons.inj (hcons.symm.trans h)
    rfl

/-- A text with a blank is its first piece, a run of blanks and the rest. -/
theorem eq_append_of_blank {text rest : Text} {c : Char}
    (h : text.dropWhile (!isBlank ·) = c :: rest) :
    text = text.takeWhile (!isBlank ·) ++
        c :: (rest.takeWhile isBlank ++ rest.dropWhile isBlank) ∧
      (∀ d ∈ text.takeWhile (!isBlank ·), isBlank d = false) ∧
      ∀ d ∈ c :: rest.takeWhile isBlank, isBlank d = true := by
  refine ⟨by rw [List.takeWhile_append_dropWhile, ← h, List.takeWhile_append_dropWhile], ?_, ?_⟩
  · intro d hd
    simpa using List.mem_takeWhile_imp hd
  · have hhead := List.head?_dropWhile_not (!isBlank ·) text
    refine List.forall_mem_cons.mpr ⟨by simpa [h] using hhead, ?_⟩
    intro d hd
    exact List.mem_takeWhile_imp hd

/-- The pieces of a text make up its code points that are no blanks. -/
theorem flatten_pieces (text : Text) : (pieces text).flatten = text.filter (!isBlank ·) := by
  induction text using pieces.induct with
  | case1 text hdrop =>
    have hword := List.dropWhile_eq_nil_iff.mp hdrop
    rw [pieces_of_notBlank hdrop, List.flatten_singleton, List.filter_eq_self.mpr hword]
  | case2 text c rest hdrop ih =>
    obtain ⟨htext, hword, hblanks⟩ := eq_append_of_blank hdrop
    have hkept : (text.takeWhile (!isBlank ·)).filter (!isBlank ·) =
        text.takeWhile (!isBlank ·) :=
      List.filter_eq_self.mpr fun d hd => by simp [hword d hd]
    have hdropped : (c :: rest.takeWhile isBlank).filter (!isBlank ·) = [] :=
      List.filter_eq_nil_iff.mpr fun d hd => by simp [hblanks d hd]
    rw [pieces_of_blank hdrop, List.flatten_cons, ih]
    conv_rhs => rw [htext]
    rw [List.filter_append, hkept, ← List.cons_append, List.filter_append, hdropped,
      List.nil_append]

/-- Every text has a piece. -/
theorem pieces_ne_nil (text : Text) : pieces text ≠ [] := by
  cases h : text.dropWhile (!isBlank ·) with
  | nil => simp [pieces_of_notBlank h]
  | cons c rest => simp [pieces_of_blank h]

end Text

namespace Markup

namespace WordReader

/-- All spans read so far, in order, less the blanks. -/
def spans (reader : WordReader) : List Span :=
  reader.words.reverse.flatten ++ reader.current

/-- The plain text of what was read so far. -/
def shown (reader : WordReader) : Text.Reader :=
  ⟨reader.words.map plainText, plainText reader.current⟩

end WordReader

/-- A list without an empty text span has a text span when it has text. -/
theorem hasText_iff {spans : List Span} (hfilled : Span.text [] ∉ spans) :
    hasText spans = true ↔ plainText spans ≠ [] := by
  induction spans with
  | nil => simp [hasText]
  | cons span later ih =>
    rw [List.mem_cons, not_or] at hfilled
    have hlater := ih hfilled.2
    simp only [hasText] at hlater
    cases span with
    | text content =>
      have hcontent : content ≠ [] := fun hnil => hfilled.1 (by rw [hnil])
      simp [hasText, Span.isText, Span.content, hcontent]
    | opening name => simpa [hasText, Span.isText, Span.content] using hlater
    | closing name => simpa [hasText, Span.isText, Span.content] using hlater

namespace WordReader

/-- The end of a word leaves the spans read as they are. -/
theorem spans_endWord (reader : WordReader) : reader.endWord.spans = reader.spans := by
  unfold endWord
  split <;> simp [spans]

/-- A piece that is not empty is read as a span. -/
theorem spans_addPiece (reader : WordReader) (piece : Text) :
    (reader.addPiece piece).spans =
      reader.spans ++ if piece.isEmpty then [] else [.text piece] := by
  unfold addPiece
  split <;> simp [spans]

/-- A word of spans ends where its text does. -/
theorem shown_endWord {reader : WordReader} (hfilled : Span.text [] ∉ reader.spans) :
    reader.endWord.shown = reader.shown.endWord := by
  have hcurrent : Span.text [] ∉ reader.current := fun hmem =>
    hfilled (List.mem_append_right _ hmem)
  have htext := hasText_iff hcurrent
  unfold endWord Text.Reader.endWord
  by_cases hempty : plainText reader.current = []
  · have hnone : hasText reader.current = false := by simpa [hempty] using htext
    simp [shown, hempty, hnone]
  · simp [shown, hempty, htext.mpr hempty]

/-- A piece goes to the current word of the text. -/
theorem shown_addPiece (reader : WordReader) (piece : Text) :
    (reader.addPiece piece).shown =
      { reader.shown with current := reader.shown.current ++ piece } := by
  unfold addPiece
  split <;> simp_all [shown, Span.content]

/-- Reading a text is reading its pieces, with the end of a word before each. -/
theorem foldl_pieces (reader : WordReader) (text : Text) :
    (Text.pieces text).foldl (fun reader piece => reader.endWord.addPiece piece) reader =
      reader.endWord.addText text := by
  unfold addText
  split
  · next hnil => exact absurd hnil (Text.pieces_ne_nil text)
  · next hcons => rw [hcons, List.foldl_cons]

/-- A piece adds its text to what is shown and no tags, and no empty text is left. -/
theorem addPiece_spec {reader : WordReader} (hfilled : Span.text [] ∉ reader.spans) (piece : Text) :
    tags (reader.addPiece piece).spans = tags reader.spans ∧
      Span.text [] ∉ (reader.addPiece piece).spans := by
  rw [spans_addPiece, tags_append, List.mem_append, not_or]
  split <;> simp_all

/-- Reading a text reads its code points, keeps all tags in place and leaves no empty text. -/
theorem addText_spec {reader : WordReader} (hfilled : Span.text [] ∉ reader.spans) (text : Text) :
    (reader.addText text).shown = text.foldl Text.Reader.step reader.shown ∧
      tags (reader.addText text).spans = tags reader.spans ∧
      Span.text [] ∉ (reader.addText text).spans := by
  induction text using Text.pieces.induct generalizing reader with
  | case1 text hdrop =>
    have hword : ∀ c ∈ text, Text.isBlank c = false := by
      simpa using List.dropWhile_eq_nil_iff.mp hdrop
    have hadd : reader.addText text = reader.addPiece text := by
      rw [addText, Text.pieces_of_notBlank hdrop]
      rfl
    rw [hadd, Text.Reader.foldl_step_of_notBlank hword, shown_addPiece]
    exact ⟨rfl, addPiece_spec hfilled text⟩
  | case2 text c rest hdrop ih =>
    obtain ⟨htext, hword, hblank⟩ := Text.eq_append_of_blank hdrop
    obtain ⟨hc, hblanks⟩ := List.forall_mem_cons.mp hblank
    have hadd : reader.addText text =
        (reader.addPiece (text.takeWhile (!Text.isBlank ·))).endWord.addText
          (rest.dropWhile Text.isBlank) := by
      rw [← foldl_pieces, addText, Text.pieces_of_blank hdrop]
    obtain ⟨htags, hpiece⟩ := addPiece_spec hfilled (text.takeWhile (!Text.isBlank ·))
    have hshown := shown_endWord hpiece
    have hspans := spans_endWord (reader.addPiece (text.takeWhile (!Text.isBlank ·)))
    obtain ⟨hread, htagsRest, hfilledRest⟩ := ih (hspans ▸ hpiece)
    rw [hadd]
    refine ⟨?_, by rw [htagsRest, hspans, htags], hfilledRest⟩
    rw [hread, hshown, shown_addPiece]
    conv_rhs => rw [htext]
    rw [List.foldl_append, Text.Reader.foldl_step_of_notBlank hword, List.foldl_cons,
      Text.Reader.step, if_pos hc, List.foldl_append, Text.Reader.foldl_step_of_blank hblanks]

/-- A tag stands at the end of what was read, in whichever word it belongs to. -/
theorem spans_step_tag (reader : WordReader) {tag : Span} (htag : tag.isText = false) :
    (reader.step tag).spans = reader.spans ++ [tag] := by
  obtain ⟨words, current⟩ := reader
  cases tag with
  | text content => cases htag
  | opening name => simp [step, spans]
  | closing name =>
    simp only [step]
    split
    · next hend =>
      cases words with
      | nil => simp at hend
      | cons last before =>
        obtain rfl : current = [] := by simpa using hend
        simp [spans, extendLast]
    · simp [spans]

/-- A span adds its tag at the end of what was read, or reads its code points. -/
theorem step_spec {reader : WordReader} (hfilled : Span.text [] ∉ reader.spans) (span : Span) :
    (reader.step span).shown = span.content.foldl Text.Reader.step reader.shown ∧
      tags (reader.step span).spans = tags reader.spans ++ tags [span] ∧
      Span.text [] ∉ (reader.step span).spans := by
  cases span with
  | text content => simpa [step, Span.content] using addText_spec hfilled content
  | opening name =>
    rw [spans_step_tag reader rfl, tags_append]
    exact ⟨by simp [step, shown, Span.content], rfl, by simpa using hfilled⟩
  | closing name =>
    have hshown : (reader.step (.closing name)).shown = reader.shown := by
      obtain ⟨words, current⟩ := reader
      simp only [step]
      split
      · cases words <;> simp [shown, extendLast, Span.content]
      · simp [shown, Span.content]
    rw [spans_step_tag reader rfl, hshown, tags_append]
    exact ⟨by simp [Span.content], rfl, by simpa using hfilled⟩

/-- Reading spans reads their text and keeps all tags, and brings in no empty text. -/
theorem foldl_step_spec {reader : WordReader} (hfilled : Span.text [] ∉ reader.spans)
    (spans : List Span) :
    (spans.foldl step reader).shown = (plainText spans).foldl Text.Reader.step reader.shown ∧
      tags (spans.foldl step reader).spans = tags reader.spans ++ tags spans ∧
      Span.text [] ∉ (spans.foldl step reader).spans := by
  induction spans generalizing reader with
  | nil => simpa using hfilled
  | cons span later ih =>
    obtain ⟨hshown, htags, hstep⟩ := step_spec hfilled span
    obtain ⟨hshownLater, htagsLater, hlater⟩ := ih hstep
    refine ⟨?_, ?_, hlater⟩
    · rw [List.foldl_cons, hshownLater, hshown, plainText_cons, List.foldl_append]
    · rw [List.foldl_cons, htagsLater, htags, List.append_assoc, ← tags_append,
        List.singleton_append]

/-- A piece has its marks behind those read before. -/
theorem marks_addPiece (reader : WordReader) (piece : Text) :
    marks (reader.addPiece piece).spans = marks reader.spans ++ marks [.text piece] := by
  rw [spans_addPiece, marks_append]
  split <;> simp_all [Span.atoms]

/-- Pieces add the code points that they hold. -/
theorem marks_foldl_addPiece (reader : WordReader) (pieces : List Text) :
    marks (pieces.foldl (fun reader piece => reader.endWord.addPiece piece) reader).spans =
      marks reader.spans ++ marks [.text pieces.flatten] := by
  induction pieces generalizing reader with
  | nil => simp [Span.atoms]
  | cons piece later ih =>
    rw [List.foldl_cons, ih, marks_addPiece, spans_endWord, List.flatten_cons]
    simp [atoms_text_append]

/-- A text adds its code points but for the blanks. -/
theorem marks_addText (reader : WordReader) (text : Text) :
    marks (reader.addText text).spans = marks reader.spans ++ marks [.text text] := by
  have hpieces := Text.flatten_pieces text
  unfold addText
  split
  · next hnil => exact absurd hnil (Text.pieces_ne_nil text)
  · next first later hcons =>
    rw [hcons, List.flatten_cons] at hpieces
    have hkept : marks [.text (first ++ later.flatten)] = marks [.text text] := by
      simp [hpieces, Span.atoms]
    rw [marks_foldl_addPiece, marks_addPiece, ← hkept]
    simp [atoms_text_append]

/-- The spans read have the marks of those given. -/
theorem marks_foldl_step (reader : WordReader) (spans : List Span) :
    marks (spans.foldl step reader).spans = marks reader.spans ++ marks spans := by
  induction spans generalizing reader with
  | nil => simp
  | cons span later ih =>
    have hspan : marks (reader.step span).spans = marks reader.spans ++ marks [span] := by
      cases span with
      | text content => exact marks_addText reader content
      | opening name => rw [spans_step_tag reader rfl, marks_append]
      | closing name => rw [spans_step_tag reader rfl, marks_append]
    rw [List.foldl_cons, ih, hspan, List.append_assoc, ← marks_append, List.singleton_append]

/-- The words hold everything that was read. -/
theorem flatten_finish (reader : WordReader) : reader.finish.flatten = reader.spans := by
  obtain ⟨words, current⟩ := reader
  unfold finish
  by_cases hempty : current.isEmpty = true
  · rw [if_pos hempty]
    simp [spans, List.isEmpty_iff.mp hempty]
  · rw [if_neg hempty]
    split
    · simp [spans]
    · next hend =>
      cases words with
      | nil => simp at hend
      | cons last before => simp [spans, extendLast]

/-- The words show the words of what was read, but for tags that stand without any word. -/
theorem finish_spec {reader : WordReader} (hfilled : Span.text [] ∉ reader.spans) :
    reader.finish.map plainText = reader.shown.endWord.words.reverse ∨
      reader.shown.endWord.words = [] ∧
        ∃ word, reader.finish = [word] ∧ word ≠ [] ∧ plainText word = [] := by
  have hcurrent : Span.text [] ∉ reader.current := fun hmem =>
    hfilled (List.mem_append_right _ hmem)
  have htext := hasText_iff hcurrent
  obtain ⟨words, current⟩ := reader
  by_cases hempty : plainText current = []
  · have hnone : hasText current = false := by simpa [hempty] using htext
    have hend : (WordReader.shown ⟨words, current⟩).endWord.words = words.map plainText := by
      simp [shown, Text.Reader.endWord, hempty]
    cases words with
    | nil =>
      by_cases hcurrentNil : current = []
      · left
        rw [hend]
        simp [finish, hcurrentNil]
      · right
        exact ⟨by simp [hend], current, by simp [finish, hcurrentNil], hcurrentNil, hempty⟩
    | cons last before =>
      left
      rw [hend]
      unfold finish
      split
      · simp
      · simp [hnone, extendLast, hempty]
  · left
    have hsome : hasText current = true := htext.mpr hempty
    have hcurrentNil : current ≠ [] := by
      rintro rfl
      exact hempty rfl
    simp [finish, shown, Text.Reader.endWord, hempty, hsome, hcurrentNil]

end WordReader

/-- The words of a span list hold its tags in order, hold no empty text, and show the words of its
plain text; tags without any word make up one that shows nothing. -/
theorem words_spec (spans : List Span) :
    tags (words spans).flatten = tags spans ∧ Span.text [] ∉ (words spans).flatten ∧
      ((words spans).map plainText = Text.words (plainText spans) ∨
        Text.words (plainText spans) = [] ∧
          ∃ word, words spans = [word] ∧ word ≠ [] ∧ plainText word = []) := by
  have hstart : Span.text [] ∉ (WordReader.mk [] []).spans := by simp [WordReader.spans]
  obtain ⟨hshown, htags, hfilled⟩ := WordReader.foldl_step_spec hstart spans
  have hempty : (WordReader.mk [] []).shown = ⟨[], []⟩ := rfl
  have hfinish := WordReader.finish_spec hfilled
  rw [hshown, hempty] at hfinish
  refine ⟨?_, ?_, ?_⟩
  · rw [words, WordReader.flatten_finish, htags]
    rfl
  · rwa [words, WordReader.flatten_finish]
  · rw [Text.words, List.reverse_eq_nil_iff]
    exact hfinish

/-- The words of a span list hold code points of its text, and no blanks. -/
theorem of_mem_plainText_words {spans : List Span} {c : Char}
    (hc : c ∈ plainText (words spans).flatten) : c ∈ plainText spans ∧ Text.isBlank c = false := by
  obtain ⟨_, _, hwords⟩ := words_spec spans
  rw [plainText_flatten, List.mem_flatten] at hc
  obtain ⟨word, hword, hc⟩ := hc
  rcases hwords with hwords | ⟨_, only, honly, _, hplain⟩
  · rw [hwords] at hword
    have hread : ∀ d ∈ plainText spans, Text.isBlank d = false →
        d ∈ plainText spans ∧ Text.isBlank d = false := fun d hd hblank => ⟨hd, hblank⟩
    exact (Text.of_mem_words hread hword).2 c hc
  · rw [honly, List.map_singleton, hplain, List.mem_singleton] at hword
    rw [hword] at hc
    cases hc

/-- The words of a span list hold its tags, and its text but for the blanks. -/
theorem words_keeps (spans : List Span) : Keeps (words spans).flatten spans := by
  obtain ⟨_, hfilled, _⟩ := words_spec spans
  refine ⟨?_, fun c hc => Or.inr (of_mem_plainText_words hc).1, fun _ => hfilled⟩
  rw [words, WordReader.flatten_finish, WordReader.marks_foldl_step]
  rfl

/-! ### The lines of wrapped spans -/

/-- Spans without tags and without text are none at all. -/
theorem eq_nil_of_plainText_eq_nil {spans : List Span} (hfilled : Span.text [] ∉ spans)
    (htags : tags spans = []) (hplain : plainText spans = []) : spans = [] := by
  cases spans with
  | nil => rfl
  | cons span later =>
    rw [plainText_cons, List.append_eq_nil_iff] at hplain
    cases span with
    | text content =>
      obtain rfl : content = [] := hplain.1
      exact absurd (List.mem_cons_self ..) hfilled
    | opening name => simp at htags
    | closing name => simp at htags

/-- Blanks alone make no word. -/
theorem words_eq_nil_of_marks {spans : List Span} (h : marks spans = []) : words spans = [] := by
  have htags := congrArg tags h
  rw [tags_atoms, tags_nil] at htags
  have hplain := congrArg plainText h
  rw [plainText_atoms, plainText_nil, List.filter_eq_nil_iff] at hplain
  have hnone : Text.words (plainText spans) = [] := by
    apply List.eq_nil_iff_forall_not_mem.mpr
    intro word hword
    have hread : ∀ c ∈ plainText spans, Text.isBlank c = false → False := by
      intro c hc hblank
      exact hplain c hc (by simp [hblank])
    obtain ⟨hne, hall⟩ := Text.of_mem_words hread hword
    obtain ⟨c, later, rfl⟩ := List.exists_cons_of_ne_nil hne
    exact hall c (List.mem_cons_self ..)
  obtain ⟨htagsWords, hfilled, hwords | ⟨_, word, hword, hne, hempty⟩⟩ := words_spec spans
  · rwa [hnone, List.map_eq_nil_iff] at hwords
  · rw [hword, List.flatten_singleton] at htagsWords hfilled
    exact absurd (eq_nil_of_plainText_eq_nil hfilled (htagsWords.trans htags) hempty) hne

/-- Wrapped spans are lines that keep the words, there is at least one, and each is made well nested
behind the tags open before it. The lead of later lines is the indent where that leaves room. -/
theorem wrapSpans_spec (spans : List Span) (width indent : Int) :
    ∃ lead lines, wrapSpans spans width indent =
        indentRest (Text.spaces lead) (balanceLines [] lines) ∧
      Keeps lines.flatten (words spans).flatten ∧ lines ≠ [] ∧
      (0 < width → indent < width → lead = indent) := by
  have hmarks := (words_keeps spans).marks
  cases hwords : words spans with
  | nil =>
    exact ⟨indent, [[]], by rw [wrapSpans, hwords]; rfl, Keeps.refl [], by simp, fun _ _ => rfl⟩
  | cons first later =>
    rw [hwords] at hmarks
    by_cases hnarrow : width ≤ 0
    · refine ⟨indent, [_], by simp only [wrapSpans, hwords, if_pos hnarrow]; rfl, ?_, by simp,
        fun hwidth => by omega⟩
      rw [List.flatten_singleton]
      exact intercalate_keeps (first :: later)
    · have hpacked (room laterRoom : Nat) : pack room laterRoom (first :: later) ≠ [] := by
        intro hnone
        have hpack := (pack_keeps room laterRoom (first :: later)).marks
        rw [hnone, hmarks] at hpack
        simp [words_eq_nil_of_marks hpack.symm] at hwords
      have hkeeps := pack_keeps width.toNat (width - if width ≤ indent then 0 else indent).toNat
        (first :: later)
      refine ⟨if width ≤ indent then 0 else indent, _, ?_, hkeeps, hpacked _ _, ?_⟩
      · simp only [wrapSpans, hwords, if_neg hnarrow]
      · intro _ hindent
        rw [if_neg (by omega)]

/-- A line behind which later lines are indented is one of the lines, behind the lead or not. -/
theorem exists_of_mem_indentRest {lead text : Text} {lines : List Text}
    (h : text ∈ indentRest lead lines) : ∃ line ∈ lines, text = line ∨ text = lead ++ line := by
  cases lines with
  | nil => cases h
  | cons first later =>
    rcases List.mem_cons.mp h with rfl | hlater
    · exact ⟨_, List.mem_cons_self .., Or.inl rfl⟩
    · obtain ⟨line, hline, rfl⟩ := List.mem_map.mp hlater
      exact ⟨line, List.mem_cons_of_mem _ hline, Or.inr rfl⟩

/-- Wrapped spans have a line. -/
theorem wrapSpans_ne_nil (spans : List Span) (width indent : Int) :
    wrapSpans spans width indent ≠ [] := by
  obtain ⟨lead, lines, hwrap, _, hlines, _⟩ := wrapSpans_spec spans width indent
  obtain ⟨first, later, rfl⟩ := List.exists_cons_of_ne_nil hlines
  rw [hwrap]
  exact List.cons_ne_nil _ _

end Markup

end TextGrid
