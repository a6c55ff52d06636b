import Renewal.Message.Layout
import Renewal.Message.Value

/-! # Values written by layouts

A text is cut to its precision and filled up to its width. A number is written by its code: a whole
number in some base or as the code point it stands for, any number with a point, with an exponent,
or as a percentage. Values of other kinds have no layouts.
-/

namespace Renewal.Message

/-- The parts of a written number: grouped digits stand between what is in front and what
follows. -/
structure NumberParts where
  negative : Bool := false
  /-- What stands before the digits, after the sign. -/
  lead : Text := []
  digits : Text := []
  /-- What stands after the digits. -/
  rest : Text := []

/-- Puts a separator after every `size` digits; `count` digits of the current group have been
seen. -/
def separate (g : Grouping) : (count : Nat) → Text → Text
  | _, [] => []
  | count, c :: rest =>
    if count = g.size then g.separator :: c :: separate g 1 rest
    else c :: separate g (count + 1) rest

/-- How many digits fill a width together with their separators. -/
def digitsFor (g : Grouping) (width : Nat) : Nat :=
  width - width / (g.size + 1) + (if 0 < width ∧ width % (g.size + 1) = 0 then 1 else 0)

/-- Digits in groups, filled up with zeros to a least width. -/
def grouped (grouping : Option Grouping) (least : Nat) (digits : Text) : Text :=
  match grouping with
  | none => Number.zeros (least - digits.length) ++ digits
  | some g =>
    let all := Number.zeros (digitsFor g least - digits.length) ++ digits
    (separate g 0 all.reverse).reverse

namespace Layout

/-- The sign that a number is shown with. -/
def signOf (l : Layout) (negative : Bool) : Text :=
  if negative then "-"
  else
    match l.sign with
    | some .plus => "+"
    | some .space => " "
    | _ => ""

/-- A number laid out. Zeros that fill up after the sign are grouped with the digits. -/
def number (l : Layout) (p : NumberParts) : Text :=
  let sign := l.signOf p.negative ++ p.lead
  let zeroFilled := l.fill = ('0' : CodePoint) ∧ l.side = .afterSign
  let least :=
    if zeroFilled then l.width.getD 0 - (sign.length + p.rest.length) else 0
  let digits := if p.digits.isEmpty then [] else grouped l.grouping least p.digits
  l.fillUp sign (digits ++ p.rest)

/-- The most code points that a result is held in. -/
def lengthLimit : Nat := Nat.pow 2 31

/-- A result, unless its layout asks for too long a one. -/
def held (l : Layout) (t : Layout → Text) : Except LayoutFault Text :=
  if lengthLimit ≤ l.width.getD 0 then .error .tooLong else .ok (t l)

/-- A text laid out. -/
def text (l : Layout) (t : Text) : Except LayoutFault Text :=
  if l.sign = some .space then .error .spaceInText
  else if l.sign.isSome then .error .signInText
  else if l.plainZero then .error .zeroInText
  else if l.alternate then .error .alternateInText
  else if l.side = .afterSign then .error .afterSignInText
  else l.held fun l => l.fillUp [] (match l.precision with
    | some n => t.take n
    | none => t)

/-- The base that a code stands for and what is put in front of its digits. -/
def baseOf (c : CodePoint) : Nat × Text :=
  if c = ('b' : CodePoint) then (2, "0b")
  else if c = ('o' : CodePoint) then (8, "0o")
  else if c = ('x' : CodePoint) then (16, "0x")
  else if c = ('X' : CodePoint) then (16, "0X")
  else (10, "")

/-- Digits in upper case. -/
def upperDigits (t : Text) : Text :=
  t.map fun c => if c.between 'a' 'z' then .ofNat (c.code - 32) else c

/-- The code point that a whole number stands for. -/
def character (l : Layout) (n : Int) : Except LayoutFault Text :=
  if l.sign.isSome then .error .signInCharacter
  else if l.alternate then .error .alternateInCharacter
  else if n < -0x8000000000000000 ∨ 0x8000000000000000 ≤ n then .error .noWord
  else if n < 0 ∨ 0x110000 ≤ n then .error .noCharacter
  else l.held fun l => l.number { rest := [.ofNat n.toNat] }

/-- A whole number in a base. -/
def whole (l : Layout) (code : CodePoint) (n : Int) : Except LayoutFault Text :=
  if l.precision.isSome then .error .precisionInInteger
  else if l.plainZero then .error .zeroInInteger
  else if code = ('c' : CodePoint) then l.character n
  else
    let (base, lead) := baseOf code
    let digits := (Nat.toDigits base n.natAbs).map CodePoint.ofChar
    l.held fun l => l.number
      { negative := n < 0
        lead := if l.alternate then lead else []
        digits := if code = ('X' : CodePoint) then upperDigits digits else digits }

/-- The most places that a number with a fraction can have. -/
def precisionLimit : Nat := Nat.pow 2 31 - 1

/-- Whether a code is one of those listed. -/
def codeIn (codes : String) (code : Option CodePoint) : Bool :=
  code.any fun c => isOneOf c codes

/-- A finite number without its sign, by its code. -/
def realDigits (l : Layout) (b : Number.Binary) : Text :=
  let w : Number.Written :=
    { limit := 16, fraction := true, point := l.alternate
      mark := if codeIn "EG" l.code then 'E' else 'e' }
  let places := l.precision.getD 6
  if codeIn "fF%" l.code then Number.fixed w b places
  else if codeIn "eE" l.code then Number.withExponent w b places
  else if l.code.isSome then
    let count := max places 1
    Number.general { w with limit := count, fraction := false } b count
  else
    match l.precision with
    | none => Number.shortestWith w b
    | some n =>
      let count := max n 1
      Number.general { w with limit := count - 1 } b count

/-- The text of a number that is not finite. -/
def notFinite (x : Float) (code : Option CodePoint) : Text :=
  let t : Text := if x.isNaN then "nan" else "inf"
  if codeIn "EFG" code then upperDigits t else t

/-- A written number divided where its digits end. -/
def partsOf (negative : Bool) (t : Text) : NumberParts :=
  let digits := t.takeWhile CodePoint.isAsciiDigit
  { negative, digits, rest := t.drop digits.length }

/-- Whether a written number has no other digits than zeros, its exponent apart. -/
def isZero (t : Text) : Bool :=
  (t.takeWhile fun c => c.isAsciiDigit || c == ('.' : CodePoint)).all fun c =>
    c == ('0' : CodePoint) || c == ('.' : CodePoint)

/-- A number with a fraction. -/
def real (l : Layout) (x : Float) : Except LayoutFault Text :=
  if precisionLimit < l.precision.getD 0 then .error .precisionTooBig
  else l.held fun l =>
    let percent := l.code = some ('%' : CodePoint)
    let x := if percent then x * 100.0 else x
    let b := Number.Binary.ofFloat x
    let written :=
      if x.isNaN || x.isInf then notFinite x l.code else l.realDigits b
    let negative :=
      if x.isNaN then false
      else if x.isInf then x < 0
      else b.negative && !(l.plainZero && isZero written)
    l.number (partsOf negative (written ++ (if percent then "%" else "" : Text)))

end Layout

/-- How texts are usually written. -/
def usualText : Usual := ⟨"str", .right, some 's'⟩

/-- How whole numbers of a kind are usually written. -/
def usualWhole (kind : Text) : Usual := ⟨kind, .left, some 'd'⟩

/-- How numbers with a fraction are usually written. -/
def usualReal : Usual := ⟨"float", .left, none⟩

/-- A text by a layout. -/
def layText (layout t : Text) : Except LayoutFault Text := do
  let l ← Layout.ofText usualText layout
  if l.code ≠ some 's' then throw (.unknownCode (l.code.getD 's') "str")
  l.text t

/-- A whole number of a kind by a layout. -/
def layWhole (layout kind : Text) (n : Int) : Except LayoutFault Text := do
  let l ← Layout.ofText (usualWhole kind) layout
  let code := l.code.getD 'd'
  if Layout.isOneOf code "bcdoxXn" then l.whole code n
  else if Layout.isOneOf code "eEfFgG%" then
    let x := Float.ofScientific n.natAbs false 0
    if x.isInf then throw .noReal
    l.real (if n < 0 then -x else x)
  else throw (.unknownCode code kind)

/-- A number with a fraction by a layout. -/
def layReal (layout : Text) (x : Float) : Except LayoutFault Text := do
  let l ← Layout.ofText usualReal layout
  match l.code with
  | none => l.real x
  | some code =>
    if Layout.isOneOf code "eEfFgGn%" then l.real x else throw (.unknownCode code "float")

/-- What a field stands for, written by a layout; without one it is written as it is shown. -/
def Value.write (v : Value) (layout : Text) : Except LayoutFault Text :=
  if layout.isEmpty then .ok v.shown
  else
    match v with
    | .json (.string t) => layText layout t
    | .json (.integer n) => layWhole layout "int" n
    | .json (.bool b) => layWhole layout "bool" (if b then 1 else 0)
    | .json (.real x) => layReal layout x
    | _ => .error (.unsupported v.kindName)

end Renewal.Message
