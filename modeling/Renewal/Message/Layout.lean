import Renewal.Message.Error
import Renewal.Text.Digit

/-! # Layouts

A layout says how a value is written: what fills the missing width and on which side, how the sign
is shown, how wide the value is at least, how digits are grouped, how precise the value is, and by
which code. All of it may be left out, but what is there stands in this order.
-/

namespace Renewal.Message

/-- The side of a value on which the filling stands. -/
inductive Side where
  | left
  | right
  | both
  /-- Between the sign and the digits. -/
  | afterSign
deriving DecidableEq

/-- How the sign of a number is shown. -/
inductive Sign where
  /-- Only that of a negative number. -/
  | minus
  /-- Always. -/
  | plus
  /-- With a space for a plus sign. -/
  | space
deriving DecidableEq

/-- How digits are grouped. -/
structure Grouping where
  separator : CodePoint
  /-- How many digits make a group. -/
  size : Nat
deriving DecidableEq

/-- How a value is written. -/
structure Layout where
  fill : CodePoint := ' '
  side : Side
  sign : Option Sign := none
  /-- Whether zero never has a sign. -/
  plainZero : Bool := false
  alternate : Bool := false
  width : Option Nat := none
  grouping : Option Grouping := none
  precision : Option Nat := none
  code : Option CodePoint := none

/-- What a kind of values does without a layout. -/
structure Usual where
  /-- The name of the kind. -/
  kind : Text
  side : Side
  code : Option CodePoint

/-- The side that a code point stands for. -/
def Side.ofCode? (c : CodePoint) : Option Side :=
  if c = ('<' : CodePoint) then some .right
  else if c = ('>' : CodePoint) then some .left
  else if c = ('^' : CodePoint) then some .both
  else if c = ('=' : CodePoint) then some .afterSign
  else none

/-- The sign that a code point stands for. -/
def Sign.ofCode? (c : CodePoint) : Option Sign :=
  if c = ('-' : CodePoint) then some .minus
  else if c = ('+' : CodePoint) then some .plus
  else if c = (' ' : CodePoint) then some .space
  else none

/-- A width, a precision and the number of an item are below this. -/
def numberLimit : Nat := Nat.pow 2 63

/-- The number that the decimal digits at the front of a text make, if there are any, and what
follows them; nothing if the number is too large. -/
def numberFront : (read : Option Nat) → Text → Option (Option Nat × Text)
  | read, [] => some (read, [])
  | read, c :: rest =>
    match c.decimalDigit? with
    | none => some (read, c :: rest)
    | some d =>
      let n := 10 * read.getD 0 + d
      if numberLimit ≤ n then none else numberFront (some n) rest

namespace Layout

/-- The number at the front of what is left of a layout. -/
def takeNumber (t : Text) : Except LayoutFault (Option Nat × Text) :=
  match numberFront none t with
  | some result => .ok result
  | none => .error .tooManyDigits

/-- Whether a text begins with a character, and what follows it. -/
def takeMark (c : Char) (t : Text) : Bool × Text :=
  if t.head? = some (c : CodePoint) then (true, t.tail) else (false, t)

/-- The fill and the side at the front of a layout. -/
def takeSide (t : Text) : Option CodePoint × Option Side × Text :=
  match t with
  | c :: d :: rest =>
    match Side.ofCode? d, Side.ofCode? c with
    | some side, _ => (some c, some side, rest)
    | none, some side => (none, some side, d :: rest)
    | none, none => (none, none, t)
  | [c] =>
    match Side.ofCode? c with
    | some side => (none, some side, [])
    | none => (none, none, t)
  | [] => (none, none, [])

/-- The sign at the front of what is left of a layout. -/
def takeSign (t : Text) : Option Sign × Text :=
  match t with
  | c :: rest =>
    match Sign.ofCode? c with
    | some sign => (some sign, rest)
    | none => (none, t)
  | [] => (none, [])

/-- The separator at the front of what is left of a layout. -/
def takeSeparator (t : Text) : Except LayoutFault (Option CodePoint × Text) :=
  let (comma, t) := takeMark ',' t
  let (underscore, t) := takeMark '_' t
  if comma ∧ underscore then .error .bothSeparators
  else if underscore ∧ t.head? = some (',' : CodePoint) then .error .bothSeparators
  else if comma then .ok (some ',', t)
  else if underscore then .ok (some '_', t)
  else .ok (none, t)

/-- The precision at the front of what is left of a layout. -/
def takePrecision (t : Text) : Except LayoutFault (Option Nat × Text) :=
  let (point, t) := takeMark '.' t
  if point then do
    let (precision, t) ← takeNumber t
    if precision.isNone then throw .missingPrecision
    return (precision, t)
  else .ok (none, t)

/-- Whether a code point is one of those listed. -/
def isOneOf (c : CodePoint) (codes : String) : Bool :=
  (Text.ofString codes).contains c

/-- How digits are grouped with a separator for a code: decimal digits by threes, the digits of
other bases by fours and only with underscores. -/
def groupingFor (separator : CodePoint) (code : Option CodePoint) : Except LayoutFault Grouping :=
  match code with
  | none => .ok ⟨separator, 3⟩
  | some c =>
    if isOneOf c "defgEG%F" then .ok ⟨separator, 3⟩
    else if isOneOf c "boxX" ∧ separator = ('_' : CodePoint) then .ok ⟨separator, 4⟩
    else .error (.separatorWith separator c)

/-- The layout that a text writes for a kind of values. -/
def ofText (usual : Usual) (t : Text) : Except LayoutFault Layout := do
  let (fill, side, rest) := takeSide t
  let (sign, rest) := takeSign rest
  let (plainZero, rest) := takeMark 'z' rest
  let (alternate, rest) := takeMark '#' rest
  let (zero, rest) := if fill.isNone then takeMark '0' rest else (false, rest)
  let (width, rest) ← takeNumber rest
  let (separator, rest) ← takeSeparator rest
  let (precision, rest) ← takePrecision rest
  if 1 < rest.length then throw (.invalid t usual.kind)
  let code := rest.head? <|> usual.code
  let grouping ← match separator with
    | none => pure none
    | some separator => some <$> groupingFor separator code
  let usualSide := if zero ∧ usual.side = .left then .afterSign else usual.side
  return { fill := fill.getD (if zero then '0' else ' ')
           side := side.getD usualSide
           sign, plainZero, alternate, width, grouping, precision, code }

/-- Filling. -/
def filling (l : Layout) (n : Nat) : Text :=
  List.replicate n l.fill

/-- A text with filling around it; `sign` is the part of it before which no filling stands if the
filling stands after the sign. -/
def fillUp (l : Layout) (sign t : Text) : Text :=
  let missing := l.width.getD 0 - (sign.length + t.length)
  match l.side with
  | .left => l.filling missing ++ sign ++ t
  | .right => sign ++ t ++ l.filling missing
  | .both => l.filling (missing / 2) ++ sign ++ t ++ l.filling (missing - missing / 2)
  | .afterSign => sign ++ l.filling missing ++ t

end Layout

end Renewal.Message
