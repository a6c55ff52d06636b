import Renewal.Text.Blank
import Renewal.Text.Digit
import Renewal.Text.Quoted

/-! # Reading integers

An integer is an optional sign and decimal digits of any script, with single underscores allowed
between digits and white space around it. The number of digits is limited.
-/

namespace Renewal

/-- Why a text is no integer. -/
inductive IntegerError where
  /-- The text has no such form. -/
  | malformed (text : Text)
  /-- There are more digits than are read. -/
  | tooLong (digits : Nat)
deriving DecidableEq

namespace Integer

/-- The most digits that are read. -/
def digitLimit : Nat := 4300

/-- White space around an integer; the information separators are not allowed there. -/
def isMargin (c : CodePoint) : Bool :=
  c.isBlank && !(0x1C ≤ c.code && c.code ≤ 0x1F)

/-- The digits at the front of a text with the underscores between them, and what follows. An
underscore counts only between two digits. -/
def digits : Text → List Nat × Text
  | [] => ([], [])
  | c :: rest =>
    match c.decimalDigit? with
    | some d => let (more, after) := digits rest; (d :: more, after)
    | none =>
      match rest with
      | next :: _ =>
        if c = ('_' : CodePoint) ∧ next.decimalDigit?.isSome then digits rest else ([], c :: rest)
      | [] => ([], [c])

/-- The number that decimal digits denote. -/
def ofDigits (ds : List Nat) : Nat :=
  ds.foldl (fun n d => 10 * n + d) 0

/-- The sign of an integer and what follows it. -/
def sign : Text → Bool × Text
  | [] => (false, [])
  | c :: rest =>
    if c = ('-' : CodePoint) then (true, rest)
    else if c = ('+' : CodePoint) then (false, rest)
    else (false, c :: rest)

/-- The integer a text denotes. -/
def read (t : Text) : Except IntegerError Int :=
  let (negative, body) := sign (t.dropWhile isMargin)
  let (ds, after) := digits body
  if ds.isEmpty ∨ body.head? = some ('_' : CodePoint) ∨ after.head? = some ('_' : CodePoint) then
    .error (.malformed t)
  else if digitLimit < ds.length then .error (.tooLong ds.length)
  else if after.all isMargin then
    .ok (if negative then -(ofDigits ds : Int) else ofDigits ds)
  else .error (.malformed t)

end Integer

/-- What is said of a text that is no integer. -/
def IntegerError.message : IntegerError → Text
  | .malformed t => .concat ["invalid literal for int() with base 10: ", t.quoted.take 200]
  | .tooLong n =>
    .concat ["Exceeds the limit (4300 digits) for integer string conversion: value has ", .ofNat n,
      " digits; use sys.set_int_max_str_digits() to increase the limit"]

end Renewal
