/-! # Code points and texts

A text is a list of code points. File contents need not be valid in the encoding they are read
in, so a text also holds surrogates: the code points U+DC80 to U+DCFF stand for the bytes 0x80 to
0xFF that no character decodes to. `CodePoint.strayByte` and `CodePoint.byte?` are the two
directions of that correspondence.
-/

namespace Renewal

/-- A code point, surrogates included. -/
structure CodePoint where
  /-- The number of the code point. -/
  code : Nat
  /-- Code points end at U+10FFFF. -/
  code_lt : code < 0x110000
deriving DecidableEq, Repr

namespace CodePoint

/-- The code point of a character. -/
def ofChar (c : Char) : CodePoint where
  code := c.val.toNat
  code_lt := by
    have valid := c.valid
    unfold UInt32.isValidChar Nat.isValidChar at valid
    omega

instance : Coe Char CodePoint := ⟨ofChar⟩

/-- The code point with a given number; numbers past the end stand for U+FFFD. -/
def ofNat (code : Nat) : CodePoint :=
  if small : code < 0x110000 then ⟨code, small⟩ else ⟨0xFFFD, by decide⟩

/-- The character with this number; a surrogate is none. -/
def char? (c : CodePoint) : Option Char :=
  if valid : c.code.isValidChar then some (Char.ofNatAux c.code valid) else none

/-- Surrogates are the numbers that no character has. -/
def isSurrogate (c : CodePoint) : Bool :=
  0xD800 ≤ c.code && c.code ≤ 0xDFFF

/-- The code point that stands for a byte which no character decodes to. -/
def strayByte (b : UInt8) : CodePoint where
  code := 0xDC00 + b.toNat
  code_lt := by have := b.toNat_lt; omega

/-- The undecodable byte that a code point stands for. -/
def byte? (c : CodePoint) : Option UInt8 :=
  if 0xDC80 ≤ c.code ∧ c.code ≤ 0xDCFF then some (UInt8.ofNat (c.code - 0xDC00)) else none

/-- Membership in a closed range of characters. -/
def between (lo hi : Char) (c : CodePoint) : Bool :=
  lo.val.toNat ≤ c.code && c.code ≤ hi.val.toNat

/-- The decimal digits of ASCII. -/
def isAsciiDigit (c : CodePoint) : Bool :=
  c.between '0' '9'

/-- The letters of ASCII. -/
def isAsciiLetter (c : CodePoint) : Bool :=
  c.between 'a' 'z' || c.between 'A' 'Z'

/-- The value of a hexadecimal digit. -/
def hexDigit? (c : CodePoint) : Option Nat :=
  if c.between '0' '9' then some (c.code - 48)
  else if c.between 'a' 'f' then some (c.code - 87)
  else if c.between 'A' 'F' then some (c.code - 55)
  else none

/-- Upper case letters of ASCII become lower case; nothing else changes. -/
def asciiLower (c : CodePoint) : CodePoint :=
  if c.between 'A' 'Z' then ofNat (c.code + 32) else c

end CodePoint

/-- A text is a list of code points. -/
abbrev Text := List CodePoint

namespace Text

/-- The text of a string of characters. -/
def ofString (s : String) : Text :=
  s.toList.map CodePoint.ofChar

instance : Coe String Text := ⟨ofString⟩

/-- The characters of a text, surrogates left out. -/
def toString (t : Text) : String :=
  String.ofList (t.filterMap CodePoint.char?)

/-- The parts of a message put together. -/
def concat (parts : List Text) : Text :=
  parts.flatten

/-- Parts put together with a separator between them. -/
def joinWith (separator : Text) (parts : List Text) : Text :=
  (parts.intersperse separator).flatten

/-- The decimal numeral of a natural number. -/
def ofNat (n : Nat) : Text :=
  (Nat.toDigits 10 n).map CodePoint.ofChar

/-- The decimal numeral of an integer. -/
def ofInt : Int → Text
  | .ofNat n => ofNat n
  | .negSucc n => CodePoint.ofChar '-' :: ofNat (n + 1)

/-- A hexadecimal numeral in lower case, filled up with zeros on the left. -/
def hex (width n : Nat) : Text :=
  let digits := (Nat.toDigits 16 n).map CodePoint.ofChar
  List.replicate (width - digits.length) ('0' : CodePoint) ++ digits

/-- Whether one text comes before or equals another in code point order. -/
def le : Text → Text → Bool
  | [], _ => true
  | _ :: _, [] => false
  | a :: s, b :: t => a.code < b.code || (a.code == b.code && le s t)

/-- The distinct texts of a list in increasing order. -/
def sortedSet (ts : List Text) : List Text :=
  ts.eraseDups.mergeSort le

/-- Whether a text ends with another. -/
def endsWith (t ending : Text) : Bool :=
  ending.isSuffixOf t

/-- Upper case letters of ASCII become lower case; nothing else changes. -/
def asciiLower (t : Text) : Text :=
  t.map CodePoint.asciiLower

/-- A text without the code points of a class at its end. -/
def dropEndWhile (p : CodePoint → Bool) (t : Text) : Text :=
  (t.reverse.dropWhile p).reverse

/-- A text cut at each occurrence of a code point. -/
def cutAt (separator : CodePoint) : Text → List Text
  | [] => [[]]
  | c :: rest =>
    if c = separator then [] :: cutAt separator rest
    else
      match cutAt separator rest with
      | [] => [[c]]
      | first :: others => (c :: first) :: others

end Text

end Renewal
