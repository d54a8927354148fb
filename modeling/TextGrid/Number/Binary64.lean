/-!
# Binary floating-point numbers

A double-precision number is kept exactly, as a natural number times a power of two, so that
reading, printing and comparing it is exact arithmetic. Reading a decimal rounds it to the nearest
such number, a tie to the even one.
-/

namespace TextGrid

/-- A double-precision number. A finite one is `mantissa * 2 ^ exponent` with its sign; zero has two
signs. -/
inductive Binary64
  | nan
  | infinite (negative : Bool)
  | finite (negative : Bool) (mantissa : Nat) (exponent : Int)
  deriving DecidableEq, Repr

namespace Binary64

/-- Least exponent of a finite number. -/
def leastExponent : Int := -1074

/-- Greatest exponent of a finite number. -/
def greatestExponent : Int := 971

/-- The mantissa of a finite number is below this bound. -/
def mantissaBound : Nat := Nat.pow 2 53

/-- `numerator / denominator` rounded to the nearest natural number, a tie to the even one. -/
def roundQuotient (numerator denominator : Nat) : Nat :=
  let quotient := numerator / denominator
  let twice := 2 * (numerator % denominator)
  if twice < denominator then quotient
  else if denominator < twice then quotient + 1
  else quotient + quotient % 2

/-- `base ^ exponent` as a fraction. -/
def power (base : Nat) (exponent : Int) : Nat × Nat :=
  (Nat.pow base exponent.toNat, Nat.pow base (-exponent).toNat)

/-- The number nearest to a positive fraction. -/
def ofFraction (negative : Bool) (numerator denominator : Nat) : Binary64 :=
  let scaled (exponent : Int) : Nat × Nat :=
    let (up, down) := power 2 exponent
    (numerator * down, denominator * up)
  let estimate : Int := max (numerator.log2 - denominator.log2 - 53) leastExponent
  let (a, b) := scaled estimate
  let exponent := if a / b < mantissaBound then estimate else estimate + 1
  let (a, b) := scaled exponent
  let mantissa := roundQuotient a b
  let (mantissa, exponent) :=
    if mantissa < mantissaBound then (mantissa, exponent) else (mantissa / 2, exponent + 1)
  if greatestExponent < exponent then infinite negative else finite negative mantissa exponent

/-- The number nearest to `digits * 10 ^ exponent`. Exponents far out of range are settled without
computing the power. -/
def ofDecimal (negative : Bool) (digits : Nat) (exponent : Int) : Binary64 :=
  let magnitude : Int := (Nat.toDigits 10 digits).length + exponent
  if digits = 0 ∨ magnitude < -400 then finite negative 0 leastExponent
  else if 400 < magnitude then infinite negative
  else
    let (up, down) := power 10 exponent
    ofFraction negative (digits * up) down

/-- Whether a number is zero, of either sign. -/
def isZero : Binary64 → Bool
  | finite _ mantissa _ => mantissa == 0
  | _ => false

/-- A finite number as a signed numerator over a power of two. -/
def fraction? : Binary64 → Option (Int × Nat)
  | finite negative mantissa exponent =>
    let (up, down) := power 2 exponent
    some ((if negative then -1 else 1) * (mantissa * up : Nat), down)
  | _ => none

end Binary64

end TextGrid
