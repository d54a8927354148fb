import TextGrid.Number.Binary64
import TextGrid.Text

/-!
# Shortest decimal text of a number

The text of a finite number has the fewest digits that read back as that number, and of those the
digits nearest to it. It is positional while the decimal exponent is small, and has an exponent
otherwise.
-/

namespace TextGrid

namespace Binary64

/-- The decimal digits of a number, and the power of ten that the last digit counts. -/
structure Digits where
  digits : Nat
  exponent : Int
  deriving DecidableEq, Repr

/-- The reals that round to `mantissa * 2 ^ exponent`, in quarters of `2 ^ exponent`: the lower end,
the upper end, and whether the ends belong to them. Below a power of two the numbers lie twice as
close. -/
def roundingInterval (mantissa : Nat) (exponent : Int) : Nat × Nat × Bool :=
  let narrow := mantissa == mantissaBound / 2 && leastExponent < exponent
  (4 * mantissa - (if narrow then 1 else 2), 4 * mantissa + 2, mantissa % 2 == 0)

/-- The multiple of `10 ^ grid` nearest to the number among those that round to it, if any. Only the
two multiples next to the number are tried, and of two equally near ones the even one is taken. -/
def nearestOnGrid? (mantissa : Nat) (exponent grid : Int) : Option Digits :=
  let (low, high, closed) := roundingInterval mantissa exponent
  let (twoUp, twoDown) := power 2 (exponent - 2)
  let (tenUp, tenDown) := power 10 grid
  let unit := twoUp * tenDown
  let step := tenUp * twoDown
  let value := 4 * mantissa * unit
  let below := value / step
  let inside (count : Nat) : Bool :=
    let point := count * step
    (low * unit < point && point < high * unit) ||
      (closed && (point == low * unit || point == high * unit))
  let toBelow := value - below * step
  let toAbove := (below + 1) * step - value
  match inside below, inside (below + 1) with
  | false, false => none
  | true, false => some ⟨below, grid⟩
  | false, true => some ⟨below + 1, grid⟩
  | true, true =>
    if toBelow < toAbove ∨ (toBelow = toAbove ∧ below % 2 = 0) then some ⟨below, grid⟩
    else some ⟨below + 1, grid⟩

/-- The decimal exponent of a positive number: that of its first digit. -/
def decimalExponent (mantissa : Nat) (exponent : Int) : Int :=
  let (up, down) := power 2 exponent
  ((Nat.toDigits 10 (mantissa * up * Nat.pow 10 400 / down)).length : Int) - 401

/-- The first grid, from coarse to fine, with a point that rounds to the number. Seventeen digits
always suffice. -/
def shortestFrom (mantissa : Nat) (exponent grid : Int) : Nat → Digits
  | 0 => ⟨mantissa, exponent⟩
  | tries + 1 =>
    match nearestOnGrid? mantissa exponent grid with
    | some digits => digits
    | none => shortestFrom mantissa exponent (grid - 1) tries

/-- The shortest digits that read back as a positive number. -/
def shortest (mantissa : Nat) (exponent : Int) : Digits :=
  shortestFrom mantissa exponent (decimalExponent mantissa exponent) 18

/-- Numbers with a decimal exponent in this range, both ends included, are written without one. -/
def positionalRange : Int × Int := (-4, 15)

/-- The text of digits with their decimal exponent: positional, with at least one digit after the
point, or one digit before the point and a signed exponent of at least two digits. -/
def Digits.text (number : Digits) : Text :=
  let all := Nat.toDigits 10 number.digits
  let lead : Int := all.length - 1 + number.exponent
  let digits := (all.reverse.dropWhile (· == '0')).reverse
  let zeros (count : Int) : Text := List.replicate count.toNat '0'
  if positionalRange.1 ≤ lead ∧ lead ≤ positionalRange.2 then
    if lead < 0 then ['0', '.'] ++ zeros (-lead - 1) ++ digits
    else
      let whole := digits.take (lead.toNat + 1)
      let rest := digits.drop (lead.toNat + 1)
      whole ++ zeros (lead + 1 - whole.length) ++ '.' :: (if rest.isEmpty then ['0'] else rest)
  else
    let power := Nat.toDigits 10 lead.natAbs
    let rest := digits.drop 1
    let sign := if lead < 0 then '-' else '+'
    digits.take 1 ++ (if rest.isEmpty then [] else '.' :: rest) ++ 'e' :: sign ::
      zeros (2 - power.length) ++ power

/-- Spellings of the numbers that have no digits. -/
structure Spelling where
  nan : Text
  infinity : Text

/-- Spelling in plain text. -/
def plainSpelling : Spelling := ⟨['n', 'a', 'n'], ['i', 'n', 'f']⟩

/-- Spelling inside compact lists and maps. -/
def compactSpelling : Spelling := ⟨['N', 'a', 'N'], ['I', 'n', 'f', 'i', 'n', 'i', 't', 'y']⟩

/-- The text of a number. -/
def text (spelling : Spelling) : Binary64 → Text
  | nan => spelling.nan
  | infinite negative => (if negative then ['-'] else []) ++ spelling.infinity
  | finite negative mantissa exponent =>
    (if negative then ['-'] else []) ++
      (if mantissa = 0 then ['0', '.', '0'] else (shortest mantissa exponent).text)

end Binary64

end TextGrid
