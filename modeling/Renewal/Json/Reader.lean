import Renewal.Json.Basic
import Renewal.Pattern.Error
import Renewal.Text.Integer

/-! # Reading JSON

A reader takes a value from the front of a text and gives what follows it. A fault is told by how
much of the text was left where it was found, from which the position follows. Nesting is limited,
and so is the length of integers. The names of the numbers that are not finite are read as well.
-/

namespace Renewal.Json

/-- What is wrong with a JSON text. -/
inductive Fault where
  | expectingValue
  | expectingName
  | expectingColon
  | expectingComma
  | unterminatedString
  | controlCharacter
  | badEscape
  | badUnicodeEscape
  | extraData
  | byteOrderMark
deriving DecidableEq

/-- What a fault is called. -/
def Fault.describe : Fault → Text
  | .expectingValue => "Expecting value"
  | .expectingName => "Expecting property name enclosed in double quotes"
  | .expectingColon => "Expecting ':' delimiter"
  | .expectingComma => "Expecting ',' delimiter"
  | .unterminatedString => "Unterminated string starting at"
  | .controlCharacter => "Invalid control character at"
  | .badEscape => "Invalid \\escape"
  | .badUnicodeEscape => "Invalid \\uXXXX escape"
  | .extraData => "Extra data"
  | .byteOrderMark => "Unexpected UTF-8 BOM (decode using utf-8-sig)"

/-- What is read into. -/
inductive Container where
  | array
  | object
deriving DecidableEq

/-- Why reading stops at some place. -/
inductive Stop where
  /-- A fault where so many code points are left. -/
  | fault (f : Fault) (left : Nat)
  /-- An integer with too many digits. -/
  | integer (e : IntegerError)
  /-- Values are nested too deep. -/
  | tooDeep (inside : Container)
deriving DecidableEq

/-- A text that is no JSON text. -/
inductive ReadError where
  /-- A fault at a position of a text. -/
  | malformed (f : Fault) (position : Nat) (source : Text)
  | integer (e : IntegerError)
  | tooDeep (inside : Container)
deriving DecidableEq

/-- What is said of a text that is no JSON text. -/
def ReadError.message : ReadError → Text
  | .malformed f position source =>
    let (line, column) := source.lineAndColumn position
    .concat [f.describe, ": line ", .ofNat line, " column ", .ofNat column, " (char ",
      .ofNat position, ")"]
  | .integer e => e.message
  | .tooDeep inside => .concat ["maximum recursion depth exceeded while decoding a JSON ",
      (match inside with | .array => "array" | .object => "object"), " from a unicode string"]

/-- How deep values may be nested unless told otherwise. -/
def nestingLimit : Nat := 985

/-- White space between the parts of a value. -/
def isSpace (c : CodePoint) : Bool :=
  c.code == 32 || c.code == 9 || c.code == 10 || c.code == 13

/-- What follows white space. -/
def skipSpace (t : Text) : Text :=
  t.dropWhile isSpace

/-- A fault in front of a text. -/
def faultAt {α : Type} (f : Fault) (t : Text) : Except Stop α :=
  .error (.fault f t.length)

/-- The number that four hexadecimal digits denote. -/
def hexNumber (digits : Text) : Option Nat :=
  (digits.mapM CodePoint.hexDigit?).map fun ds => ds.foldl (fun n d => 16 * n + d) 0

/-- Reads the digits of an escape by number; the text begins with the letter u. At least one more
code point has to follow the digits. -/
def unicodeEscape (t : Text) : Except Stop (Nat × Text) :=
  let digits := (t.drop 1).take 4
  let rest := t.drop 5
  if rest.isEmpty then faultAt .badUnicodeEscape t
  else
    match hexNumber digits with
    | none => faultAt .badUnicodeEscape t
    | some n => .ok (n, rest)

/-- The number of the character that two surrogates stand for. -/
def joinSurrogates (high low : Nat) : Nat :=
  0x10000 + (high - 0xD800) * 0x400 + (low - 0xDC00)

/-- Reads an escape by number, and the one after it if the two are surrogates of one character;
the text begins with the letter u. -/
def numberedCode (t : Text) : Except Stop (CodePoint × Text) := do
  let (n, rest) ← unicodeEscape t
  if 0xD800 ≤ n ∧ n ≤ 0xDBFF ∧ ("\\u" : Text).isPrefixOf rest ∧ 6 < rest.length then
    let (m, after) ← unicodeEscape rest.tail
    if 0xDC00 ≤ m ∧ m ≤ 0xDFFF then return (.ofNat (joinSurrogates n m), after)
    else return (.ofNat n, rest)
  else return (.ofNat n, rest)

/-- The code points that are written by one letter after a backslash. -/
def letterCode? (c : CodePoint) : Option CodePoint :=
  let table : List (Char × Nat) :=
    [('"', 34), ('\\', 92), ('/', 47), ('b', 8), ('f', 12), ('n', 10), ('r', 13), ('t', 9)]
  (table.find? fun (letter, _) => (letter : CodePoint) == c).map fun (_, code) => .ofNat code

/-- Reads one code point of a string; nothing if the string ends here. The fault of a string that
never ends is told where it began. -/
def stringCode (start : Nat) (t : Text) : Except Stop (Option CodePoint × Text) :=
  match t with
  | [] => .error (.fault .unterminatedString start)
  | c :: rest =>
    if c = ('"' : CodePoint) then .ok (none, rest)
    else if c.code ≤ 0x1F then faultAt .controlCharacter t
    else if c = ('\\' : CodePoint) then
      match rest with
      | [] => .error (.fault .unterminatedString start)
      | d :: after =>
        if d = ('u' : CodePoint) then (numberedCode rest).map fun (c, after) => (some c, after)
        else
          match letterCode? d with
          | some c => .ok (some c, after)
          | none => faultAt .badEscape t
    else .ok (some c, rest)

/-- Reads a string of at most `bound` code points whose opening quote has been taken. -/
def stringBody (start : Nat) : (bound : Nat) → Text → Except Stop (Text × Text)
  | 0, _ => .error (.fault .unterminatedString start)
  | bound + 1, t => do
    match ← stringCode start t with
    | (none, rest) => return ([], rest)
    | (some c, rest) =>
      let (more, after) ← stringBody start bound rest
      return (c :: more, after)

/-- Reads a string whose opening quote has been taken. -/
def stringRest (t : Text) : Except Stop (Text × Text) :=
  stringBody (t.length + 1) (t.length + 1) t

/-- The digits at the front of a text, and what follows. -/
def digits (t : Text) : Text × Text :=
  t.span CodePoint.isAsciiDigit

/-- The fraction at the front of a text, with its point. -/
def fraction (t : Text) : Text × Text :=
  match t with
  | [] => ([], [])
  | c :: rest =>
    let (ds, after) := digits rest
    if c = ('.' : CodePoint) ∧ !ds.isEmpty then (c :: ds, after) else ([], t)

/-- The exponent at the front of a text, with its letter. -/
def exponent (t : Text) : Text × Text :=
  match t with
  | [] => ([], [])
  | c :: rest =>
    let (sign, rest) := match rest with
      | d :: more =>
        if d = ('+' : CodePoint) ∨ d = ('-' : CodePoint) then ([d], more) else ([], rest)
      | [] => ([], [])
    let (ds, after) := digits rest
    if (c = ('e' : CodePoint) ∨ c = ('E' : CodePoint)) ∧ !ds.isEmpty then
      (c :: (sign ++ ds), after)
    else ([], t)

/-- The number nearest to a decimal. Decimals far outside the range of numbers need no
arithmetic. -/
def nearest (negative : Bool) (mantissa : Nat) (exponent : Int) : Float :=
  let size : Int := (Nat.toDigits 10 mantissa).length + exponent
  let magnitude : Float :=
    if mantissa = 0 ∨ size < -400 then 0.0
    else if 400 < size then 1.0 / 0.0
    else .ofScientific mantissa (exponent < 0) exponent.natAbs
  if negative then -magnitude else magnitude

/-- The number that a numeral with a fraction or an exponent denotes. -/
def realNumber (negative : Bool) (whole fraction exponent : Text) : Float :=
  let places := fraction.drop 1
  let mantissa := Integer.ofDigits ((whole ++ places).map fun c => c.code - 48)
  let shift : Int := match Integer.read (exponent.drop 1) with
    | .ok n => n
    | .error _ => 0
  nearest negative mantissa (shift - places.length)

/-- Reads a number, if one is there. -/
def number? (t : Text) : Except Stop (Option (Json × Text)) :=
  let negative := t.head? = some ('-' : CodePoint)
  let body := if negative then t.drop 1 else t
  let (whole, rest) :=
    if body.head? = some ('0' : CodePoint) then (body.take 1, body.drop 1) else digits body
  if whole.isEmpty then .ok none
  else
    let (frac, rest) := fraction rest
    let (exp, rest) := exponent rest
    if frac.isEmpty ∧ exp.isEmpty then
      match Integer.read whole with
      | .error e => .error (.integer e)
      | .ok n => .ok (some (.integer (if negative then -n else n), rest))
    else .ok (some (.real (realNumber negative whole frac exp), rest))

/-- The values that are written by a word. -/
def wordValues : List (String × Json) :=
  [("null", .null), ("true", .bool true), ("false", .bool false), ("NaN", .real (0.0 / 0.0)),
    ("Infinity", .real (1.0 / 0.0)), ("-Infinity", .real (-1.0 / 0.0))]

/-- Reads a value that has no parts. -/
def scalar (t : Text) : Except Stop (Json × Text) :=
  match wordValues.find? fun (word, _) => (Text.ofString word).isPrefixOf t with
  | some (word, value) => .ok (value, t.drop word.length)
  | none => do
    match ← number? t with
    | some reading => return reading
    | none => faultAt .expectingValue t

/-- Reads the items of an array from the first one on. -/
def items (value : Text → Except Stop (Json × Text)) :
    (bound : Nat) → Text → Except Stop (List Json × Text)
  | 0, t => faultAt .expectingValue t
  | bound + 1, t => do
    let (first, rest) ← value t
    match skipSpace rest with
    | [] => faultAt .expectingComma []
    | c :: after =>
      if c = (']' : CodePoint) then return ([first], after)
      else if c = (',' : CodePoint) then
        let (more, after) ← items value bound (skipSpace after)
        return (first :: more, after)
      else faultAt .expectingComma (c :: after)

/-- Reads the name of a field. -/
def fieldName (t : Text) : Except Stop (Text × Text) :=
  match t with
  | [] => faultAt .expectingName t
  | c :: rest => if c = ('"' : CodePoint) then stringRest rest else faultAt .expectingName t

/-- Reads the colon after the name of a field and the white space around it. -/
def colon (t : Text) : Except Stop Text :=
  match skipSpace t with
  | [] => faultAt .expectingColon []
  | c :: rest =>
    if c = (':' : CodePoint) then .ok (skipSpace rest) else faultAt .expectingColon (c :: rest)

/-- Reads the fields of an object from the first one on. -/
def fields (value : Text → Except Stop (Json × Text)) :
    (bound : Nat) → Text → Except Stop (List (Text × Json) × Text)
  | 0, t => faultAt .expectingName t
  | bound + 1, t => do
    let (name, rest) ← fieldName t
    let (first, rest) ← value (← colon rest)
    match skipSpace rest with
    | [] => faultAt .expectingComma []
    | c :: after =>
      if c = ('\x7d' : CodePoint) then return ([(name, first)], after)
      else if c = (',' : CodePoint) then
        let (more, after) ← fields value bound (skipSpace after)
        return ((name, first) :: more, after)
      else faultAt .expectingComma (c :: after)

/-- Reads an array whose opening bracket has been taken. -/
def arrayRest (value : Text → Except Stop (Json × Text)) (t : Text) : Except Stop (Json × Text) :=
  let t := skipSpace t
  if t.head? = some (']' : CodePoint) then .ok (.list [], t.tail)
  else (items value (t.length + 1) t).map fun (items, rest) => (.list items, rest)

/-- Reads an object whose opening brace has been taken. -/
def objectRest (value : Text → Except Stop (Json × Text)) (t : Text) : Except Stop (Json × Text) :=
  let t := skipSpace t
  if t.head? = some ('\x7d' : CodePoint) then .ok (.object [], t.tail)
  else
    (fields value (t.length + 1) t).map fun (pairs, rest) =>
      (.object (Fields.ofList pairs), rest)

/-- Reads a value in which arrays and objects are nested at most `depth` deep. -/
def value : (depth : Nat) → Text → Except Stop (Json × Text)
  | _, [] => faultAt .expectingValue []
  | depth, c :: rest =>
    if c = ('"' : CodePoint) then (stringRest rest).map fun (t, after) => (.string t, after)
    else if c = ('[' : CodePoint) then
      match depth with
      | 0 => .error (.tooDeep .array)
      | depth + 1 => arrayRest (value depth) rest
    else if c = ('\x7b' : CodePoint) then
      match depth with
      | 0 => .error (.tooDeep .object)
      | depth + 1 => objectRest (value depth) rest
    else scalar (c :: rest)

/-- Reads one value with white space around it, nested no deeper than allowed. -/
def document (t : Text) (nesting : Nat := nestingLimit) : Except Stop Json := do
  let (j, rest) ← value nesting (skipSpace t)
  let rest := skipSpace rest
  if rest.isEmpty then return j else faultAt .extraData rest

/-- The value that a text denotes. A byte order mark in front is refused. -/
def read (t : Text) (nesting : Nat := nestingLimit) : Except ReadError Json :=
  if t.head? = some (.ofNat 0xFEFF) then .error (.malformed .byteOrderMark 0 t)
  else
    (document t nesting).mapError fun
      | .fault f left => .malformed f (t.length - left) t
      | .integer e => .integer e
      | .tooDeep inside => .tooDeep inside

end Renewal.Json
