import TextGrid.Text
import TextGrid.Unicode.DecimalDigits

/-!
# Numbers in decimal digits

A text of decimal digits, of any scripts, writes a natural number. There is a limit on how many
digits are read: a longer text is no number, and its length is told. An integer of more digits is
not written either.
-/

namespace TextGrid

/-- What a text says when it is read as decimal digits. -/
inductive Decimal
  | number (value : Nat)
  /-- Digits only, but more of them than are read. -/
  | tooLong (digits : Nat)
  /-- Something else than digits, or nothing. -/
  | other
  deriving DecidableEq, Repr

namespace Decimal

/-- The greatest number of digits that are read or written. -/
def maxDigits : Nat := 4300

/-- The number that digits write, the greatest place first. -/
def ofDigits (digits : List Nat) : Nat :=
  digits.foldl (10 * · + ·) 0

/-- Reads a text as decimal digits. Zeros in front count towards the limit. -/
def read (text : Text) : Decimal :=
  match text.mapM Unicode.digitValue? with
  | none | some [] => other
  | some digits =>
    if maxDigits < digits.length then tooLong digits.length else number (ofDigits digits)

/-- The number that was read, if there is one. -/
def number? : Decimal → Option Nat
  | number value => some value
  | tooLong _ | other => none

/-- The decimal digits of an integer behind its sign, unless there are too many of them. -/
def write? (value : Int) : Option Text :=
  let digits := Nat.toDigits 10 value.natAbs
  if digits.length ≤ maxDigits then some (if value < 0 then '-' :: digits else digits) else none

/-- A blank that may stand around an integer: any but the four separators among the controls. -/
def isOuterBlank (c : Char) : Bool :=
  Text.isBlank c && !(0x1C ≤ c.toNat && c.toNat ≤ 0x1F)

/-- Reads an integer: a sign or none, then digits, in which single underscores may stand between
two of them. Blanks around it do not matter. -/
def readInteger? (text : Text) : Option Int :=
  let magnitude? (digits : Text) : Option Nat :=
    let groups := Text.splitAt '_' digits
    if groups.any (·.isEmpty) then none else (read groups.flatten).number?
  match Text.trimAll isOuterBlank text with
  | '-' :: digits => (magnitude? digits).map fun value => -(value : Int)
  | '+' :: digits => (magnitude? digits).map fun value => (value : Int)
  | digits => (magnitude? digits).map fun value => (value : Int)

end Decimal

end TextGrid
