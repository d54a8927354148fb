import TextGrid.Markup.Slice

/-!
# Word wrapping

A marked-up text is split into words at its blanks, the words are packed onto lines as long as they
fit, and every line is made well-nested on its own: tags still open at its end are closed there and
opened again on the next line. A word wider than a line is broken between clusters.
-/

namespace TextGrid.Markup

/-- The words found so far, last one first, and the word being read. -/
structure WordReader where
  words : List (List Span)
  current : List Span
  deriving DecidableEq, Repr

namespace WordReader

/-- Puts spans at the end of the last finished word. -/
def extendLast (reader : WordReader) (spans : List Span) : List (List Span) :=
  match reader.words with
  | [] => []
  | last :: before => (last ++ spans) :: before

/-- Ends the current word, if it holds any text. Tags alone are no word and stay. -/
def endWord (reader : WordReader) : WordReader :=
  if hasText reader.current then ⟨reader.current :: reader.words, []⟩ else reader

/-- Reads a piece without blanks. -/
def addPiece (reader : WordReader) (piece : Text) : WordReader :=
  if piece.isEmpty then reader
  else { reader with current := reader.current ++ [.text piece] }

/-- Reads a text: a word ends wherever blanks stand. -/
def addText (reader : WordReader) (text : Text) : WordReader :=
  match Text.pieces text with
  | [] => reader
  | first :: later =>
    later.foldl (fun reader piece => reader.endWord.addPiece piece) (reader.addPiece first)

/-- Reads a span. A closing tag after blanks belongs to the word before them, and an opening tag
to the word after it. -/
def step (reader : WordReader) : Span → WordReader
  | .text content => reader.addText content
  | .closing name =>
    if reader.current.isEmpty && !reader.words.isEmpty then
      { reader with words := reader.extendLast [.closing name] }
    else { reader with current := reader.current ++ [.closing name] }
  | .opening name => { reader with current := reader.current ++ [.opening name] }

/-- All words in order. Tags after the last word belong to it. -/
def finish (reader : WordReader) : List (List Span) :=
  (if reader.current.isEmpty then reader.words
    else if hasText reader.current || reader.words.isEmpty then reader.current :: reader.words
    else reader.extendLast reader.current).reverse

end WordReader

/-- The words of a span list, each with the tags that touch it. -/
def words (spans : List Span) : List (List Span) :=
  (spans.foldl WordReader.step ⟨[], []⟩).finish

/-- A long word as lines filled to the brim and a rest that fits, with the room of the rest's
line. -/
structure Broken where
  lines : List (List Span)
  rest : List Span
  room : Nat
  deriving DecidableEq, Repr

/-- Breaks spans into lines until the rest fits. The first line has `room` cells and later ones
have `laterRoom`. -/
def breakWord (room laterRoom : Nat) (spans : List Span) : Broken :=
  if _h : spansWidth spans ≤ room then ⟨[], spans, room⟩
  else
    let parts := split room true spans
    let after := breakWord laterRoom laterRoom parts.tail
    { after with lines := parts.head :: after.lines }
termination_by textLength spans
decreasing_by
  exact textLength_tail_split_lt room (textLength_pos_of_spansWidth_pos (by omega))

/-- Lines filled so far, last one first, and the line being filled with its cells used and its
room. -/
structure Packer where
  lines : List (List Span)
  current : List Span
  used : Nat
  room : Nat
  deriving DecidableEq, Repr

namespace Packer

/-- Starts a word on a fresh line, after tags that are not on a line yet. -/
def startLine (packer : Packer) (laterRoom : Nat) (word : List Span) : Packer :=
  let broken := breakWord packer.room laterRoom (packer.current ++ word)
  ⟨broken.lines.reverse ++ packer.lines, broken.rest, spansWidth broken.rest, broken.room⟩

/-- Puts a word on the current line if it fits there behind a space, else on the next one. -/
def addWord (laterRoom : Nat) (packer : Packer) (word : List Span) : Packer :=
  if hasText packer.current then
    let total := packer.used + 1 + spansWidth word
    if total ≤ packer.room then
      { packer with current := packer.current ++ .text [' '] :: word, used := total }
    else startLine ⟨packer.current :: packer.lines, [], 0, laterRoom⟩ laterRoom word
  else packer.startLine laterRoom word

/-- All lines in order. Tags after the last line belong to it. -/
def finish (packer : Packer) : List (List Span) :=
  (if packer.current.isEmpty then packer.lines
    else match packer.lines with
      | [] => [packer.current]
      | last :: before =>
        if hasText packer.current then packer.current :: packer.lines
        else (last ++ packer.current) :: before).reverse

end Packer

/-- Words packed onto lines, each line taking as many as fit. -/
def pack (room laterRoom : Nat) (words : List (List Span)) : List (List Span) :=
  (words.foldl (Packer.addWord laterRoom) ⟨[], [], 0, room⟩).finish

/-- Lines as texts that are each well nested. `carried` are the tags open before the first line. -/
def balanceLines : List Text → List (List Span) → List Text
  | _, [] => []
  | carried, line :: later =>
    let full := carried.map .opening ++ line
    join (rebalance full) :: balanceLines (openTags full) later

/-- Puts `lead` in front of every line but the first. -/
def indentRest (lead : Text) : List Text → List Text
  | [] => []
  | first :: rest => first :: rest.map (lead ++ ·)

/-- Wraps a span list to lines of `width` cells, those after the first indented by `indent` spaces
that count towards the width. An indent that leaves no room is dropped. Without a positive width all
words go onto one line. -/
def wrapSpans (spans : List Span) (width indent : Int) : List Text :=
  match words spans with
  | [] => [[]]
  | first :: later =>
    if width ≤ 0 then [join (rebalance (List.intercalate [.text [' ']] (first :: later)))]
    else
      let indent := if width ≤ indent then 0 else indent
      let lines := pack width.toNat (width - indent).toNat (first :: later)
      indentRest (Text.spaces indent) (balanceLines [] lines)

/-- Wraps a marked-up text, with later lines indented. -/
def wrapIndent (text : Text) (width indent : Int) : Except MarkupError (List Text) :=
  return wrapSpans (← parse text) width indent

/-- Wraps a marked-up text to lines of at most `width` cells. -/
def wrap (text : Text) (width : Int) : Except MarkupError (List Text) :=
  wrapIndent text width 0

end TextGrid.Markup
