import Renewal.Json.Basic
import Renewal.Number.Shortest

/-! # Writing JSON

A JSON text in ASCII on one line: a comma or a colon has a space after it, and a code point outside
ASCII is written by number, as two surrogates if it has more than four digits.
-/

namespace Renewal.Json

/-- A code point written by number. -/
def numbered (n : Nat) : Text :=
  .concat ["\\u", .hex 4 n]

/-- A code point inside a string. -/
def writeCode (c : CodePoint) : Text :=
  let n := c.code
  if c = ('"' : CodePoint) ∨ c = ('\\' : CodePoint) then ['\\', c]
  else if n = 10 then "\\n"
  else if n = 13 then "\\r"
  else if n = 9 then "\\t"
  else if n = 12 then "\\f"
  else if n = 8 then "\\b"
  else if 32 ≤ n ∧ n < 127 then [c]
  else if n < 0x10000 then numbered n
  else numbered (0xD800 + (n - 0x10000) / 0x400) ++ numbered (0xDC00 + (n - 0x10000) % 0x400)

/-- A string. -/
def writeString (t : Text) : Text :=
  ('"' : CodePoint) :: t.flatMap writeCode ++ [('"' : CodePoint)]

/-- A number with a fraction or an exponent, or the name of one that is not finite. -/
def writeReal (x : Float) : Text :=
  if x.isNaN then "NaN"
  else if x.isInf then (if x < 0 then "-Infinity" else "Infinity")
  else Number.shortest x

mutual
/-- The JSON text of a value. -/
def write : Json → Text
  | .null => "null"
  | .bool b => if b then "true" else "false"
  | .integer n => .ofInt n
  | .real x => writeReal x
  | .string t => writeString t
  | .list items => .concat ["[", .joinWith ", " (writeItems items), "]"]
  | .object fields => .concat ["\x7b", .joinWith ", " (writeFields fields), "\x7d"]

/-- The texts of items. -/
def writeItems : List Json → List Text
  | [] => []
  | j :: rest => j.write :: writeItems rest

/-- The texts of fields. -/
def writeFields : List (Text × Json) → List Text
  | [] => []
  | (name, j) :: rest => .concat [writeString name, ": ", j.write] :: writeFields rest
end

end Renewal.Json
