/-!
# Sums

Sums of widths, over natural numbers where nothing is negative and over integers where a width may
be.
-/

namespace TextGrid

/-- The sum of natural numbers. -/
def sumNat (numbers : List Nat) : Nat :=
  numbers.foldr (· + ·) 0

/-- No numbers add up to zero. -/
@[simp] theorem sumNat_nil : sumNat [] = 0 := rfl

/-- A first number is added to the others. -/
@[simp] theorem sumNat_cons (number : Nat) (rest : List Nat) :
    sumNat (number :: rest) = number + sumNat rest := rfl

/-- The sums of two lists add up. -/
@[simp] theorem sumNat_append (left right : List Nat) :
    sumNat (left ++ right) = sumNat left + sumNat right := by
  induction left with
  | nil => simp
  | cons number rest ih => simp [ih, Nat.add_assoc]

/-- The order of numbers does not count for their sum. -/
@[simp] theorem sumNat_reverse (numbers : List Nat) :
    sumNat numbers.reverse = sumNat numbers := by
  induction numbers with
  | nil => rfl
  | cons number rest ih => simp [ih, Nat.add_comm]

/-- The sum of integers. -/
def sumInt (numbers : List Int) : Int :=
  numbers.foldr (· + ·) 0

/-- No numbers add up to zero. -/
@[simp] theorem sumInt_nil : sumInt [] = 0 := rfl

/-- A first number is added to the others. -/
@[simp] theorem sumInt_cons (number : Int) (rest : List Int) :
    sumInt (number :: rest) = number + sumInt rest := rfl

/-- The sums of two lists add up. -/
@[simp] theorem sumInt_append (left right : List Int) :
    sumInt (left ++ right) = sumInt left + sumInt right := by
  induction left with
  | nil => simp
  | cons number rest ih => simp [ih, Int.add_assoc]

end TextGrid
