import TextGrid.Text
import TextGrid.Unicode.Unprintable

/-!
# Quoted text

Messages and keys show a text between quotes. Single quotes are used unless the text holds single
quotes and no double ones; code points without a printed form are written as escapes.
-/

namespace TextGrid.Text

/-- The last `count` hexadecimal digits of a number, small letters. -/
def hexDigits (count number : Nat) : Text :=
  let digits := Nat.toDigits 16 number
  List.replicate (count - digits.length) '0' ++ digits

/-- The quote to write a text in. -/
def quoteFor (text : List Char) : Char :=
  if text.contains '\'' && !text.contains '"' then '"' else '\''

/-- The escape of a quote, a backslash or a common control, if `c` is one. -/
def shortEscape? (quote c : Char) : Option Text :=
  if c = quote ∨ c = '\\' then some ['\\', c]
  else if c = '\n' then some ['\\', 'n']
  else if c = '\r' then some ['\\', 'r']
  else if c = '\t' then some ['\\', 't']
  else none

/-- The escape of a code point by its number. -/
def numberEscape (code : Nat) : Text :=
  if code < 0x100 then ['\\', 'x'] ++ hexDigits 2 code
  else if code < 0x10000 then ['\\', 'u'] ++ hexDigits 4 code
  else ['\\', 'U'] ++ hexDigits 8 code

/-- A code point as it stands between quotes. -/
def quoteChar (quote c : Char) : Text :=
  match shortEscape? quote c with
  | some escape => escape
  | none => if Unicode.unprintable.contains c.toNat then numberEscape c.toNat else [c]

/-- A text between quotes. -/
def quoted (text : Text) : Text :=
  let quote := quoteFor text
  quote :: text.flatMap (quoteChar quote) ++ [quote]

/-- Bytes as a text with one code point each. -/
def ofBytes (bytes : List UInt8) : Text :=
  bytes.map fun byte => Char.ofNat byte.toNat

/-- A byte as it stands between quotes; everything but printable ASCII is escaped. -/
def quoteByte (quote c : Char) : Text :=
  match shortEscape? quote c with
  | some escape => escape
  | none => if 0x20 ≤ c.toNat ∧ c.toNat < 0x7F then [c] else numberEscape c.toNat

/-- Bytes between quotes, marked by a `b`. -/
def quotedBytes (bytes : List UInt8) : Text :=
  let text := ofBytes bytes
  let quote := quoteFor text
  'b' :: quote :: text.flatMap (quoteByte quote) ++ [quote]

/-- Bytes between quotes as a buffer shows them: a single quote is always escaped, and a double one
never. -/
def quotedBuffer (bytes : List UInt8) : Text :=
  let text := ofBytes bytes
  let quote := quoteFor text
  "bytearray(b".toList ++ quote :: text.flatMap (quoteByte '\'') ++ [quote, ')']

/-- Order of texts by code point: whether `a` does not come after `b`. -/
def precedes : Text → Text → Bool
  | [], _ => true
  | _ :: _, [] => false
  | a :: as, b :: bs => if a = b then precedes as bs else a.toNat < b.toNat

end TextGrid.Text
