/-! # Numbers as binary fractions

A finite number is a whole number of a power of two. The bits give both exactly, so that questions
about the number become questions about natural numbers.
-/

namespace Renewal.Number

/-- A binary fraction: `mantissa` times two to the power of `power`. -/
structure Binary where
  negative : Bool
  mantissa : Nat
  power : Int
deriving DecidableEq

/-- The binary fraction that a finite number is. -/
def Binary.ofFloat (x : Float) : Binary :=
  let bits := x.toBits.toNat
  let fraction : Nat := bits % Nat.pow 2 52
  let exponent : Nat := bits / Nat.pow 2 52 % Nat.pow 2 11
  { negative := Nat.pow 2 63 ≤ bits
    mantissa := if exponent = 0 then fraction else fraction + Nat.pow 2 52
    power := if exponent = 0 then -1074 else (exponent : Int) - 1075 }

/-- The whole part of a binary fraction. -/
def Binary.truncate (b : Binary) : Int :=
  let magnitude : Nat :=
    if 0 ≤ b.power then b.mantissa * Nat.pow 2 b.power.toNat
    else b.mantissa / Nat.pow 2 (-b.power).toNat
  if b.negative then -magnitude else magnitude

end Renewal.Number
