import TextGrid.Number.Decimal
import TextGrid.Value

/-!
# Reading JSON

A strict reader of JSON texts into values. Three words stand for the numbers without digits; of two
members with one name the later one counts. Lists and mappings may be nested to a certain depth.
-/

namespace TextGrid.Json

/-- Why a text is not read. -/
inductive Fault
  | malformed
  /-- Lists and mappings are nested deeper than is read. -/
  | tooDeep
  deriving DecidableEq, Repr

/-- How deep lists and mappings may be nested. -/
def maxDepth : Nat := 985

/-- Blanks between the tokens of a JSON text. -/
def isSpace (c : Char) : Bool :=
  c == ' ' || c == '\t' || c == '\n' || c == '\r'

/-- The text after its leading blanks. -/
def skipSpaces (text : Text) : Text :=
  text.dropWhile isSpace

/-- The text after a word, if it begins with that. -/
def readWord? (word : String) (text : Text) : Option Text :=
  if word.toList.isPrefixOf text then some (text.drop word.length) else none

/-- The value of a hexadecimal digit. -/
def hexValue? (c : Char) : Option Nat :=
  if c.isDigit then some (c.toNat - '0'.toNat)
  else if 'a' ≤ c ∧ c ≤ 'f' then some (c.toNat - 'a'.toNat + 10)
  else if 'A' ≤ c ∧ c ≤ 'F' then some (c.toNat - 'A'.toNat + 10)
  else none

/-- The number that four hexadecimal digits write. -/
def hexNumber? (digits : Text) : Option Nat :=
  (digits.mapM hexValue?).map (List.foldl (16 * · + ·) 0)

/-- The code of an escape of one letter. -/
def escapeCode? (c : Char) : Option Nat :=
  match c with
  | '"' => some 0x22
  | '\\' => some 0x5C
  | '/' => some 0x2F
  | 'b' => some 0x08
  | 'f' => some 0x0C
  | 'n' => some 0x0A
  | 'r' => some 0x0D
  | 't' => some 0x09
  | _ => none

/-- The codes in a string up to its closing quote, and the text after that. An escape by number
gives a code of sixteen bits, which may be half of a code point. -/
def readCodes? : Text → Option (List Nat × Text)
  | [] => none
  | '"' :: rest => some ([], rest)
  | '\\' :: 'u' :: a :: b :: c :: d :: rest => do
    let code ← hexNumber? [a, b, c, d]
    let (codes, after) ← readCodes? rest
    return (code :: codes, after)
  | '\\' :: c :: rest => do
    let code ← escapeCode? c
    let (codes, after) ← readCodes? rest
    return (code :: codes, after)
  | c :: rest => do
    if c.toNat < 0x20 then none
    let (codes, after) ← readCodes? rest
    return (c.toNat :: codes, after)

/-- The code point of a code that is no half of one; a half is replaced. -/
def ofCode (code : Nat) : Char :=
  Char.ofNat (if 0xD800 ≤ code ∧ code ≤ 0xDFFF then 0xFFFD else code)

/-- The text of some codes. A high and a low half next to each other are one code point. -/
def ofCodes : List Nat → Text
  | [] => []
  | [code] => [ofCode code]
  | high :: low :: rest =>
    if 0xD800 ≤ high ∧ high ≤ 0xDBFF ∧ 0xDC00 ≤ low ∧ low ≤ 0xDFFF then
      Char.ofNat (0x10000 + 0x400 * (high - 0xD800) + (low - 0xDC00)) :: ofCodes rest
    else ofCode high :: ofCodes (low :: rest)

/-- A string after its opening quote. -/
def readString? (text : Text) : Option (Text × Text) :=
  (readCodes? text).map fun (codes, rest) => (ofCodes codes, rest)

/-- The number that decimal digits write. -/
def decimal (digits : Text) : Nat :=
  digits.foldl (fun acc c => 10 * acc + (c.toNat - '0'.toNat)) 0

/-- The digits after a decimal point, and the text after them; nothing is read without a digit. -/
def readPlaces : Text → Option Text × Text
  | '.' :: rest =>
    let digits := rest.takeWhile Char.isDigit
    if digits.isEmpty then (none, '.' :: rest) else (some digits, rest.dropWhile Char.isDigit)
  | text => (none, text)

/-- The digits of an exponent with its sign, and the text after them. -/
def readDigits (negative : Bool) (text rest : Text) : Option Int × Text :=
  let digits := rest.takeWhile Char.isDigit
  if digits.isEmpty then (none, text)
  else
    let power : Int := decimal digits
    (some (if negative then -power else power), rest.dropWhile Char.isDigit)

/-- An exponent, and the text after it; nothing is read without a digit. -/
def readExponent (text : Text) : Option Int × Text :=
  match text with
  | c :: rest =>
    if c = 'e' ∨ c = 'E' then
      match rest with
      | '-' :: after => readDigits true text after
      | '+' :: after => readDigits false text after
      | after => readDigits false text after
    else (none, text)
  | [] => (none, [])

/-- A number after its sign. One with a point or an exponent is a floating-point number; an integer
with more digits than are read is refused. -/
def readNumber? (negative : Bool) (text : Text) : Option (Value × Text) :=
  let whole? : Option (Text × Text) :=
    match text with
    | '0' :: rest => some (['0'], rest)
    | c :: rest =>
      if c.isDigit then some (c :: rest.takeWhile Char.isDigit, rest.dropWhile Char.isDigit)
      else none
    | [] => none
  whole?.bind fun (whole, rest) =>
    let (places, rest) := readPlaces rest
    let (exponent, rest) := readExponent rest
    match places, exponent with
    | none, none =>
      let number : Int := decimal whole
      if Decimal.maxDigits < whole.length then none
      else some (.int (if negative then -number else number), rest)
    | _, _ =>
      let places := places.getD []
      let power := exponent.getD 0 - places.length
      some (.float (Binary64.ofDecimal negative (decimal (whole ++ places)) power), rest)

/-- A value that is no list, mapping or string. -/
def readScalar? (text : Text) : Option (Value × Text) :=
  let word? (word : String) (value : Value) : Option (Value × Text) :=
    (readWord? word text).map fun rest => (value, rest)
  match text with
  | 'n' :: _ => word? "null" .null
  | 't' :: _ => word? "true" (.bool true)
  | 'f' :: _ => word? "false" (.bool false)
  | 'N' :: _ => word? "NaN" (.float .nan)
  | 'I' :: _ => word? "Infinity" (.float (.infinite false))
  | '-' :: rest =>
    match readWord? "Infinity" rest with
    | some after => some (.float (.infinite true), after)
    | none => readNumber? true rest
  | _ => readNumber? false text

/-- What a reader found; nothing means that the text is malformed. -/
def found {α : Type} (result : Option α) : Except Fault α :=
  result.elim (.error .malformed) .ok

mutual

/-- A value at the head of a text, and the text after it. The first argument bounds the number of
values and brackets, the second one the depth. -/
def readValue : Nat → Nat → Text → Except Fault (Value × Text)
  | 0, _, _ => .error .malformed
  | bound + 1, depth, text =>
    match text, depth with
    | '"' :: rest, _ =>
      found ((readString? rest).map fun (content, after) => (.text content, after))
    | '[' :: _, 0 | '\x7b' :: _, 0 => .error .tooDeep
    | '[' :: rest, depth + 1 =>
      match skipSpaces rest with
      | ']' :: after => .ok (.list [], after)
      | rest => (readItems bound depth rest).map fun (items, after) => (.list items, after)
    | '\x7b' :: rest, depth + 1 =>
      match skipSpaces rest with
      | '\x7d' :: after => .ok (.map [], after)
      | rest =>
        (readMembers bound depth rest).map fun (entries, after) => (Value.ofEntries entries, after)
    | text, _ => found (readScalar? text)

/-- The items of a list up to its closing bracket, and the text after that. -/
def readItems : Nat → Nat → Text → Except Fault (List Value × Text)
  | 0, _, _ => .error .malformed
  | bound + 1, depth, text => do
    let (item, rest) ← readValue bound depth text
    match skipSpaces rest with
    | ']' :: after => return ([item], after)
    | ',' :: after =>
      let (items, rest) ← readItems bound depth (skipSpaces after)
      return (item :: items, rest)
    | _ => throw .malformed

/-- The members of a mapping up to its closing bracket, and the text after that. -/
def readMembers : Nat → Nat → Text → Except Fault (List (Value × Value) × Text)
  | 0, _, _ => .error .malformed
  | bound + 1, depth, text =>
    match text with
    | '"' :: rest => do
      let (name, rest) ← found (readString? rest)
      match skipSpaces rest with
      | ':' :: after =>
        let (value, rest) ← readValue bound depth (skipSpaces after)
        match skipSpaces rest with
        | '\x7d' :: after => return ([(.text name, value)], after)
        | ',' :: after =>
          let (entries, rest) ← readMembers bound depth (skipSpaces after)
          return ((.text name, value) :: entries, rest)
        | _ => throw .malformed
      | _ => throw .malformed
    | _ => .error .malformed

end

/-- The value that a whole text writes. Every value and bracket takes a code point, so the length of
the text bounds them. -/
def read (text : Text) : Except Fault Value := do
  let (value, rest) ← readValue (2 * text.length + 2) maxDepth (skipSpaces text)
  if (skipSpaces rest).isEmpty then return value else throw .malformed

end TextGrid.Json
