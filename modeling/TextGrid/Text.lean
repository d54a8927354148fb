/-!
# Texts

A text is the list of its code points, so that every offset, length and cut is in code points.
Blank code points separate words; runs of them have no meaning of their own.
-/

namespace TextGrid

/-- A text as its code points. -/
abbrev Text := List Char

namespace Text

/-- A run of `count` spaces, empty when `count` is negative. -/
def spaces (count : Int) : Text :=
  List.replicate count.toNat ' '

/-- A text written `count` times over, empty when `count` is negative. -/
def repeated (text : Text) (count : Int) : Text :=
  (List.replicate count.toNat text).flatten

/-- The parts in order with `separator` between neighbours. -/
def joined (separator : Text) (parts : List Text) : Text :=
  List.intercalate separator parts

/-- White space: the separators and line controls that end a word. The zero-width space is none. -/
def isBlank (c : Char) : Bool :=
  let code := c.toNat
  (0x09 ≤ code && code ≤ 0x0D) || (0x1C ≤ code && code ≤ 0x20) || code == 0x85 || code == 0xA0 ||
    code == 0x1680 || (0x2000 ≤ code && code ≤ 0x200A) || code == 0x2028 || code == 0x2029 ||
    code == 0x202F || code == 0x205F || code == 0x3000

/-- The text without the code points of one kind at either end. -/
def trimAll (kind : Char → Bool) (text : Text) : Text :=
  ((text.dropWhile kind).reverse.dropWhile kind).reverse

/-- The text without the blanks at either end. -/
def trim (text : Text) : Text :=
  trimAll isBlank text

/-- The text with its ASCII capitals made small. -/
def lower (text : Text) : Text :=
  text.map Char.toLower

/-- The pieces between runs of blanks. A blank at an end leaves an empty piece there, so the
pieces of an empty text are one empty piece. -/
def pieces (text : Text) : List Text :=
  match _h : text.dropWhile (!isBlank ·) with
  | [] => [text]
  | _ :: rest => text.takeWhile (!isBlank ·) :: pieces (rest.dropWhile isBlank)
termination_by text.length
decreasing_by
  have hrest : (rest.dropWhile isBlank).length ≤ rest.length :=
    (List.dropWhile_suffix _).length_le
  have hdrop : (text.dropWhile (!isBlank ·)).length ≤ text.length :=
    (List.dropWhile_suffix _).length_le
  rw [_h, List.length_cons] at hdrop
  omega

/-- The pieces between occurrences of one code point; there is always one more than of those. -/
def splitAt (separator : Char) : Text → List Text
  | [] => [[]]
  | c :: rest =>
    if c = separator then [] :: splitAt separator rest
    else match splitAt separator rest with
      | [] => [[c]]
      | piece :: pieces => (c :: piece) :: pieces

end Text

end TextGrid
