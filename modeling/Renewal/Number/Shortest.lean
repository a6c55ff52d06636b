import Renewal.Number.Written

/-! # The shortest decimal of a number

A number is written with the fewest decimal digits that read back as the same number, and of
several such decimals the nearest. Among decimals with one more digit each time, the two neighbours
of the number are tried; those that lie in the interval of reals that round to the number read back.
-/

namespace Renewal.Number

/-- The reals that round to a number, in units of `1 / scale`. -/
structure Interval where
  value : Nat
  low : Nat
  high : Nat
  scale : Nat
  /-- Whether the ends belong to it. -/
  closed : Bool

/-- The interval of a binary fraction; below a power of two the gap is half as wide. -/
def Interval.of (b : Binary) : Interval :=
  let lift := Nat.pow 2 (b.power - 2).toNat
  let gap := if b.mantissa = Nat.pow 2 52 ∧ -1074 < b.power then 1 else 2
  { value := 4 * b.mantissa * lift
    low := (4 * b.mantissa - gap) * lift
    high := (4 * b.mantissa + 2) * lift
    scale := Nat.pow 2 (2 - b.power).toNat
    closed := b.mantissa % 2 = 0 }

/-- Whether the decimal `n` times ten to the power of `e` lies in an interval. -/
def Interval.contains (i : Interval) (n : Nat) (e : Int) : Bool :=
  let point := n * Nat.pow 10 e.toNat * i.scale
  let grid := Nat.pow 10 (-e).toNat
  if i.closed then i.low * grid ≤ point && point ≤ i.high * grid
  else i.low * grid < point && point < i.high * grid

/-- How many digits a number has before its point. -/
def Interval.magnitude (i : Interval) : Int :=
  Number.magnitude i.value i.scale

/-- The decimal with `count` digits that is nearest to a number, if it lies in the number's
interval. Of two that are equally near, the even one counts. -/
def Interval.nearest? (i : Interval) (count : Nat) : Option (Nat × Int) :=
  let e := i.magnitude - count
  let unit := Nat.pow 10 e.toNat * i.scale
  let value := i.value * Nat.pow 10 (-e).toNat
  let below := value / unit
  let twice := 2 * (value % unit)
  let up := unit < twice || (unit == twice && below % 2 == 1)
  let (first, second) := if up then (below + 1, below) else (below, below + 1)
  if i.contains first e then some (first, e)
  else if i.contains second e then some (second, e)
  else none

/-- The decimal with the fewest digits. -/
def Interval.shortest (i : Interval) : Nat × Int :=
  ((List.range 17).findSome? fun count => i.nearest? (count + 1)).getD (0, 0)

/-- The digits of the shortest decimal of a number without its sign, and how many of them stand
before the point. -/
def shortestDigits (b : Binary) : Text × Int :=
  if b.mantissa = 0 then ("0", 1)
  else
    let (n, e) := (Interval.of b).shortest
    let digits := Text.ofNat n
    (stripZeros digits, digits.length + e)

/-- A number without its sign by its shortest decimal. -/
def shortestWith (w : Written) (b : Binary) : Text :=
  let (digits, before) := shortestDigits b
  w.write digits before

/-- How numbers are written that are not laid out: with at most sixteen digits before the point, and
with at least one after it. -/
def plain : Written where
  limit := 16
  fraction := true

/-- The text of a finite number. -/
def shortest (x : Float) : Text :=
  let b := Binary.ofFloat x
  (if b.negative then "-" else "" : Text) ++ shortestWith plain b

end Renewal.Number
