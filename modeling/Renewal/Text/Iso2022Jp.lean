import Renewal.Text.Codec
import Renewal.Text.Kanji

/-! # Text in shifted sets of characters

In ISO-2022-JP a text shifts between ASCII, the Roman set of Japan and kanji by escape sequences. It
begins with ASCII and has to end with it. A byte that belongs to no set is kept as a surrogate, as
long as it is none of ASCII.
-/

namespace Renewal.Iso2022Jp

/-- A set of characters that a text can shift to. -/
inductive CharacterSet where
  | ascii
  | roman
  | kanji
deriving DecidableEq

/-- The byte that begins an escape sequence. -/
def escape : UInt8 := 0x1B

/-- The escape sequence that shifts to a set. -/
def shiftTo : CharacterSet → Bytes
  | .ascii => [escape, 0x28, 0x42]
  | .roman => [escape, 0x28, 0x4A]
  | .kanji => [escape, 0x24, 0x42]

/-- The set that has a code point, and its bytes there. -/
def bytesOf? (c : CodePoint) : Option (CharacterSet × Bytes) :=
  if c.code < 0x80 then some (.ascii, [.ofNat c.code])
  else if c.code = 0xA5 then some (.roman, [0x5C])
  else if c.code = 0x203E then some (.roman, [0x7E])
  else (Kanji.find? c).map fun (row, cell) => (.kanji, [.ofNat (0x21 + row), .ofNat (0x21 + cell)])

/-- A text with bytes in front. -/
def after (bytes : Bytes) (e : Encoded) : Encoded :=
  { e with body := bytes ++ e.body }

/-- Writes a text from a position on, in a set. -/
def encodeFrom : CharacterSet → Nat → Text → Except EncodeError Encoded
  | set, _, [] => .ok { body := [], closing := if set = .ascii then [] else shiftTo .ascii }
  | set, position, c :: rest =>
    match c.byte?, bytesOf? c with
    | some b, _ => (encodeFrom set (position + 1) rest).map (after [b])
    | none, some (next, bytes) =>
      let shift := if next = set then [] else shiftTo next
      (encodeFrom next (position + 1) rest).map (after (shift ++ bytes))
    | none, none =>
      .error ⟨"iso2022_jp", c, position, position + 1, "illegal multibyte sequence"⟩

/-- What stands at the front of a list of bytes. -/
inductive Front where
  /-- A character and the number of bytes after its first. -/
  | character (c : CodePoint) (more : Nat)
  /-- An escape sequence with so many bytes after its first; it shifts to a set or has no effect. -/
  | shift (set : Option CharacterSet) (more : Nat)
  /-- An escape sequence that is text itself. -/
  | literal
  /-- A byte of no set. -/
  | stray
  /-- Bytes that are not allowed. -/
  | invalid (length : Nat)
  /-- Too few bytes follow. -/
  | truncated

/-- The bytes that an escape sequence ends with. -/
def endsSequence (b : UInt8) : Bool :=
  0x40 ≤ b && b ≤ 0x5A

/-- The bytes that follow the escape in a sequence which shifts. -/
def beginsShift (b : UInt8) : Bool :=
  [0x24, 0x26, 0x28, 0x29, 0x2E].contains b

/-- How many bytes an escape sequence has, from the one at an index on; zero if it is too long. A
revision of a set is announced inside of it. -/
def sequenceLength? : (index : Nat) → (left : Nat) → Bytes → Option Nat
  | _, 0, _ => some 0
  | index, left + 1, bytes =>
    if 16 ≤ index then some 0
    else
      match bytes with
      | [] => none
      | b :: rest =>
        if endsSequence b then some (index + 1)
        else if b = 0x26 ∧ rest.head? = some 0x40 then
          sequenceLength? (index + 3) left (rest.drop 2)
        else sequenceLength? (index + 1) left rest

/-- The effect of an escape sequence, given what follows the escape. -/
def shiftAt (rest : Bytes) : Front :=
  match sequenceLength? 1 16 rest with
  | none => .truncated
  | some length =>
    match rest.take (length - 1) with
    | [0x24, 0x42] | [0x24, 0x40] => .shift (some .kanji) 2
    | [0x28, 0x42] => .shift (some .ascii) 2
    | [0x28, 0x4A] => .shift (some .roman) 2
    | [0x29, 0x42] | [0x29, 0x4A] => .shift none 2
    | [0x24, 0x28, 0x42] | [0x24, 0x28, 0x40] => .shift (some .kanji) 3
    | [0x24, 0x29, 0x42] | [0x24, 0x29, 0x40] => .shift none 3
    | [_, _, 0x1B, 0x24, 0x42] => .shift (some .kanji) 5
    | _ => .invalid (max 1 length)

/-- The character of a byte in the Roman set. -/
def romanCharacter (b : UInt8) : CodePoint :=
  if b = 0x5C then .ofNat 0xA5 else if b = 0x7E then .ofNat 0x203E else .ofNat b.toNat

/-- What stands at the front in a set, given the first byte and the rest. -/
def front (set : CharacterSet) (b : UInt8) (rest : Bytes) : Front :=
  if b = escape then
    match rest with
    | [] => .truncated
    | next :: _ => if beginsShift next then shiftAt rest else .literal
  else if b < 0x20 then .character (.ofNat b.toNat) 0
  else if 0x80 ≤ b then .stray
  else
    match set, rest with
    | .ascii, _ => .character (.ofNat b.toNat) 0
    | .roman, _ => .character (romanCharacter b) 0
    | .kanji, [] => .truncated
    | .kanji, next :: _ =>
      if b = 0x20 ∨ next ≤ 0x20 then .invalid 2
      else
        match Kanji.at? (b.toNat - 0x21) (next.toNat - 0x21) with
        | some c => .character c 1
        | none => .invalid 2

/-- Reads bytes from a position on, in a set. The first `skip` of them have been read already, and
an escape sequence that is text may still go on. -/
def decodeFrom : CharacterSet → (literal : Bool) → Nat → (skip : Nat) → Bytes →
    Except DecodeError Text
  | _, _, _, _, [] => .ok []
  | set, literal, position, skip + 1, _ :: rest =>
    decodeFrom set literal (position + 1) skip rest
  | set, true, position, 0, b :: rest =>
    (decodeFrom set (!endsSequence b) (position + 1) 0 rest).map (.ofNat b.toNat :: ·)
  | set, false, position, 0, b :: rest =>
    match front set b rest with
    | .character c more => (decodeFrom set false (position + 1) more rest).map (c :: ·)
    | .shift next more => decodeFrom (next.getD set) false (position + 1) more rest
    | .literal => (decodeFrom set true (position + 1) 0 rest).map (.ofNat b.toNat :: ·)
    | .stray => (decodeFrom set false (position + 1) 0 rest).map (.strayByte b :: ·)
    | .invalid length => .error ⟨b, position, length, "illegal multibyte sequence"⟩
    | .truncated => .error ⟨b, position, rest.length + 1, "incomplete multibyte sequence"⟩

/-- The codec of text in shifted sets. -/
def codec : Codec where
  decode bytes := (decodeFrom .ascii false 0 0 bytes).mapError (.decode "iso2022_jp")
  encode t := (encodeFrom .ascii 0 t).mapError .encode

/-- The other names that the codec goes by. -/
def aliases : List Text :=
  ["csiso2022jp", "iso2022jp", "iso_2022_jp"]

/-- The codec, if it goes by a name. In another name than the first, points may stand for
underscores. -/
def codec? (name : Text) : Option Codec :=
  let spelling := Encoding.normalizeName name
  if spelling = ("iso2022_jp" : Text) ∨ aliases.contains spelling ∨
      aliases.contains (Encoding.withoutPoints spelling) then some codec
  else none

end Renewal.Iso2022Jp
