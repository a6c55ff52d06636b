import Renewal.Number.Binary

/-! # Numbers rounded to decimals

A number is rounded to a number of places after the point or to a number of digits. A number that
lies halfway between two decimals goes to the even one.
-/

namespace Renewal.Number

/-- The whole number nearest to a quotient; of two that are equally near, the even one. -/
def roundQuotient (n d : Nat) : Nat :=
  let below := n / d
  let twice := 2 * (n % d)
  if d < twice ∨ (twice = d ∧ below % 2 = 1) then below + 1 else below

/-- How many digits the quotient of two positive numbers has before its point; none or fewer if it
is less than one tenth. -/
def magnitude (n d : Nat) : Int :=
  if d ≤ n then (Nat.toDigits 10 (n / d)).length
  else
    match (List.range 400).find? fun j => d ≤ n * Nat.pow 10 (j + 1) with
    | some j => -j
    | none => -400

namespace Binary

/-- The numerator of a binary fraction without its sign. -/
def numerator (b : Binary) : Nat :=
  b.mantissa * Nat.pow 2 b.power.toNat

/-- The denominator of a binary fraction. -/
def denominator (b : Binary) : Nat :=
  Nat.pow 2 (-b.power).toNat

/-- A binary fraction times a power of ten, without its sign, rounded to a whole number. -/
def scaled (b : Binary) (e : Int) : Nat :=
  roundQuotient (b.numerator * Nat.pow 10 e.toNat) (b.denominator * Nat.pow 10 (-e).toNat)

/-- A binary fraction rounded to so many digits, without its sign: the number that the digits make,
and how many of them stand before the point. -/
def significant (b : Binary) (count : Nat) : Nat × Int :=
  if b.mantissa = 0 then (0, 1)
  else
    let point := magnitude b.numerator b.denominator
    let n := b.scaled (count - point)
    if n = Nat.pow 10 count then (Nat.pow 10 (count - 1), point + 1) else (n, point)

end Binary

end Renewal.Number
