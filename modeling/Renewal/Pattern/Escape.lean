import Renewal.Pattern.Error
import Renewal.Pattern.Token

/-! # Escapes

A backslash before a letter or a digit has a meaning of its own: a control character, a class of
characters, a place, or the beginning of a longer escape. Longer escapes give the number of a code
point in hexadecimal or octal digits, the number of a group, or the name of a character.
-/

namespace Renewal.Pattern

/-- The control characters that are written by a letter after the backslash. -/
def control? (c : CodePoint) : Option CodePoint :=
  let table : List (Char × Nat) :=
    [('a', 7), ('f', 12), ('n', 10), ('r', 13), ('t', 9), ('v', 11), ('\\', 92)]
  (table.find? fun (letter, _) => (letter : CodePoint) == c).map fun (_, code) => .ofNat code

/-- A digit of an octal numeral. -/
def isOctal (c : CodePoint) : Bool :=
  c.between '0' '7'

/-- The number that digits make in a base. -/
def numberOf (base : Nat) (digits : Text) : Nat :=
  digits.foldl (fun n c => base * n + c.hexDigit?.getD 0) 0

/-- An escape that goes on after its first letter or digit. -/
inductive LongEscape where
  /-- The number of a code point in so many hexadecimal digits. -/
  | hex (letter : CodePoint) (wanted : Nat) (digits : Text)
  /-- The number of a code point in octal digits. -/
  | octal (digits : Text)
  /-- The number of a group, or that of a code point in three octal digits. -/
  | reference (digits : Text)
  /-- The name of a character, if its brace has been read. -/
  | named (name : Option Text)

/-- What a longer escape stands for. -/
inductive EscapeValue where
  | code (c : CodePoint)
  | group (number : Nat)

namespace LongEscape

/-- The longer escape that a code point after a backslash begins. In a class no group is referred
to. -/
def begin? (inClass : Bool) (c : CodePoint) : Option LongEscape :=
  if c = ('x' : CodePoint) then some (.hex c 2 [])
  else if c = ('u' : CodePoint) then some (.hex c 4 [])
  else if c = ('U' : CodePoint) then some (.hex c 8 [])
  else if c = ('N' : CodePoint) then some (.named none)
  else if isOctal c && (inClass || c == ('0' : CodePoint)) then some (.octal [c])
  else if c.isAsciiDigit && !inClass then some (.reference [c])
  else none

/-- Whether an escape goes on with a token. -/
def goesOn (e : LongEscape) (token : Token) : Bool :=
  match e with
  | .hex _ wanted digits => digits.length < wanted && token.plain?.any (·.hexDigit?.isSome)
  | .octal digits => digits.length < 3 && token.plain?.any isOctal
  | .reference digits =>
    if digits.length = 1 then token.plain?.any CodePoint.isAsciiDigit
    else digits.length = 2 && digits.all isOctal && token.plain?.any isOctal
  | .named none => token = .plain '\x7b'
  | .named (some _) => true

/-- An escape as far as it has been written. -/
def text : LongEscape → Text
  | .hex letter _ digits => '\\' :: letter :: digits
  | .octal digits | .reference digits => '\\' :: digits
  | .named _ => ['\\', 'N']

/-- An escape that began at a position goes on with a token. No character is known by name. -/
def step (e : LongEscape) (start : Nat) (token : Token) (position : Nat) :
    Except Located LongEscape :=
  match e with
  | .hex letter wanted digits => .ok (.hex letter wanted (digits ++ token.text))
  | .octal digits => .ok (.octal (digits ++ token.text))
  | .reference digits => .ok (.reference (digits ++ token.text))
  | .named none => .ok (.named (some []))
  | .named (some name) =>
    if token = .plain '\x7d' then
      .error (if name.isEmpty then (.missingCharacterName, position)
        else (.undefinedCharacter name, start))
    else .ok (.named (some (name ++ token.text)))

/-- The code point of an octal numeral. -/
def octalCode (digits : Text) (start : Nat) : Except Located EscapeValue :=
  let n := numberOf 8 digits
  if 255 < n then .error (.octalTooLarge ('\\' :: digits), start) else .ok (.code (.ofNat n))

/-- What an escape that began at a position and ends before another stands for. -/
def value (e : LongEscape) (start stop : Nat) : Except Located EscapeValue :=
  match e with
  | .hex _ wanted digits =>
    let n := numberOf 16 digits
    if digits.length < wanted then .error (.incompleteEscape e.text, start)
    else if 0x10FFFF < n then .error (.badEscape e.text, start)
    else .ok (.code (.ofNat n))
  | .octal digits => octalCode digits start
  | .reference digits =>
    if digits.length = 3 then octalCode digits start
    else .ok (.group (numberOf 10 digits))
  | .named none => .error (.missingBrace, stop)
  | .named (some name) =>
    .error (if name.isEmpty then (.missingCharacterName, stop)
      else (.unterminatedName '\x7d', stop - name.length))

end LongEscape

/-- A longer escape that is being read. -/
structure OpenEscape where
  /-- Where its backslash is. -/
  start : Nat
  /-- Its first token. -/
  token : Token
  escape : LongEscape

/-- The longer escape that a token begins. -/
def OpenEscape.begin? (inClass : Bool) (token : Token) (position : Nat) : Option OpenEscape :=
  match token with
  | .escaped c => (LongEscape.begin? inClass c).map fun e => ⟨position, token, e⟩
  | _ => none

end Renewal.Pattern
