import Renewal.Number.Rounded
import Renewal.Text.CodePoint

/-! # Written numbers

Digits are written with a point among them or with an exponent. `Written` says which, and what
happens to a point that nothing would follow.
-/

namespace Renewal.Number

/-- Zeros. -/
def zeros (n : Nat) : Text :=
  List.replicate n ('0' : CodePoint)

/-- The decimal numeral of a number, filled up with zeros on the left. -/
def padded (width n : Nat) : Text :=
  let digits := Text.ofNat n
  zeros (width - digits.length) ++ digits

/-- An exponent of at least two digits after its mark. -/
def exponent (mark : Char) (e : Int) : Text :=
  .concat [[(mark : CodePoint)], (if e < 0 then "-" else "+"), padded 2 e.natAbs]

/-- How digits are written. -/
structure Written where
  /-- The most digits before the point that are written without an exponent. -/
  limit : Int
  /-- Whether a whole number has a zero after its point. -/
  fraction : Bool := false
  /-- Whether the point stays if nothing follows it. -/
  point : Bool := false
  /-- What stands before an exponent. -/
  mark : Char := 'e'

namespace Written

/-- What follows the digits before the point. -/
def tail (w : Written) (digits : Text) : Text :=
  if digits.isEmpty then (if w.point then "." else "") else ('.' : CodePoint) :: digits

/-- Digits with a point among them; `before` digits stand before it. -/
def positional (w : Written) (digits : Text) (before : Int) : Text :=
  if before ≤ 0 then .concat ["0.", zeros (-before).toNat, digits]
  else
    let whole := digits.take before.toNat ++ zeros (before.toNat - digits.length)
    let rest := digits.drop before.toNat
    whole ++ w.tail (if rest.isEmpty ∧ w.fraction then "0" else rest)

/-- Digits with an exponent. -/
def scientific (w : Written) (digits : Text) (before : Int) : Text :=
  .concat [digits.take 1, w.tail (digits.drop 1), exponent w.mark (before - 1)]

/-- Digits of which `before` stand before the point, with an exponent if there are too many digits
or more than three zeros. -/
def write (w : Written) (digits : Text) (before : Int) : Text :=
  if before ≤ -4 ∨ w.limit < before then w.scientific digits before
  else w.positional digits before

end Written

/-- A number without its sign with so many places after the point. -/
def fixed (w : Written) (b : Binary) (places : Nat) : Text :=
  let digits := padded (places + 1) (b.scaled places)
  let before := digits.length - places
  digits.take before ++ w.tail (digits.drop before)

/-- A number without its sign with an exponent and so many places after the point. -/
def withExponent (w : Written) (b : Binary) (places : Nat) : Text :=
  let (n, before) := b.significant (places + 1)
  w.scientific (padded (places + 1) n) before

/-- Digits without the zeros at their end; one digit is left. -/
def stripZeros (digits : Text) : Text :=
  let stripped := Text.dropEndWhile (· == ('0' : CodePoint)) digits
  if stripped.isEmpty then "0" else stripped

/-- No number has more digits than this, the zeros at their end apart. -/
def digitsLimit : Nat := 767

/-- A number without its sign with so many digits, without the zeros at their end unless the point
stays in any case. -/
def general (w : Written) (b : Binary) (count : Nat) : Text :=
  let count := if w.point then count else min count digitsLimit
  let (n, before) := b.significant count
  let digits := padded count n
  w.write (if w.point then digits else stripZeros digits) before

end Renewal.Number
