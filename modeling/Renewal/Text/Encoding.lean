import Renewal.Text.Quoted

/-! # Encodings

How bytes are read as text and text is written as bytes. Reading never fails: a byte that belongs
to no character is kept as a surrogate and written back as that byte. `Encoding.decodeStrict`
refuses such bytes and says where the first of them stands, and `Encoding.decodeReplacing` puts a
mark in their place.
-/

namespace Renewal

/-- The content of a file. -/
abbrev Bytes := List UInt8

/-- The encodings of scripts. -/
inductive Encoding where
  | utf8
  /-- UTF-8 with a byte order mark in front. -/
  | utf8Signature
  | latin1
  | ascii
deriving DecidableEq, Repr

/-- A text that an encoding cannot write. -/
structure EncodeError where
  /-- The name of the encoding. -/
  codec : Text
  /-- The first code point of the run that cannot be written. -/
  first : CodePoint
  /-- Where the run starts. -/
  start : Nat
  /-- Where the run stops. -/
  stop : Nat
  /-- Why it cannot be written. -/
  reason : Text
deriving DecidableEq

/-- Bytes that are not valid in an encoding. -/
structure DecodeError where
  /-- The first byte of the run that cannot be read. -/
  first : UInt8
  /-- Where the run starts. -/
  start : Nat
  /-- How many bytes it has. -/
  length : Nat
  /-- Why it cannot be read. -/
  reason : Text
deriving DecidableEq

/-- A range of positions as messages show it. -/
def positionRange (start stop : Nat) : Text :=
  if stop = start + 1 then .ofNat start
  else .concat [.ofNat start, "-", .ofNat (stop - 1)]

/-- What is said of a text that cannot be written. -/
def EncodeError.message (e : EncodeError) : Text :=
  let subject : Text :=
    if e.stop = e.start + 1 then .concat ["character '", Text.escapeCode e.first, "'"]
    else "characters"
  .concat ["'", e.codec, "' codec can't encode ", subject, " in position ",
    positionRange e.start e.stop, ": ", e.reason]

/-- What is said of bytes that an encoding of some name cannot read. -/
def DecodeError.messageIn (codec : Text) (e : DecodeError) : Text :=
  let subject : Text :=
    if e.length = 1 then .concat ["byte 0x", .hex 2 e.first.toNat] else "bytes"
  .concat ["'", codec, "' codec can't decode ", subject, " in position ",
    positionRange e.start (e.start + e.length), ": ", e.reason]

/-- What is said of bytes that cannot be read. -/
def DecodeError.message (e : DecodeError) : Text :=
  e.messageIn "utf-8"

namespace Utf8

/-- What stands at the front of a list of bytes. -/
inductive Front where
  /-- A character and the number of bytes after its first. -/
  | character (c : CodePoint) (more : Nat)
  /-- Bytes that begin no character, and why. -/
  | invalid (length : Nat) (reason : Text)

/-- A byte that continues a character. -/
def isTail (b : UInt8) : Bool :=
  0x80 ≤ b && b ≤ 0xBF

/-- The six bits that a continuation byte carries. -/
def payload (b : UInt8) : Nat :=
  b.toNat - 0x80

/-- Too few bytes follow the first one. -/
def truncated (length : Nat) : Front :=
  .invalid length "unexpected end of data"

/-- A byte that should continue a character does not. -/
def broken (length : Nat) : Front :=
  .invalid length "invalid continuation byte"

/-- The second byte of a three-byte character: no overlong form and no surrogate. -/
def isSecondOfThree (a b : UInt8) : Bool :=
  isTail b && !(a == 0xE0 && b < 0xA0) && !(a == 0xED && 0xA0 ≤ b)

/-- The second byte of a four-byte character: no overlong form and nothing past U+10FFFF. -/
def isSecondOfFour (a b : UInt8) : Bool :=
  isTail b && !(a == 0xF0 && b < 0x90) && !(a == 0xF4 && 0x90 ≤ b)

/-- What stands at the front, given the first byte and the rest. -/
def front (a : UInt8) (rest : Bytes) : Front :=
  if a < 0x80 then .character (.ofNat a.toNat) 0
  else if a < 0xC2 then .invalid 1 "invalid start byte"
  else if a < 0xE0 then
    match rest with
    | [] => truncated 1
    | b :: _ =>
      if isTail b then .character (.ofNat ((a.toNat - 0xC0) * 64 + payload b)) 1 else broken 1
  else if a < 0xF0 then
    match rest with
    | [] => truncated 1
    | [b] => if isSecondOfThree a b then truncated 2 else broken 1
    | b :: c :: _ =>
      if !isSecondOfThree a b then broken 1
      else if !isTail c then broken 2
      else .character (.ofNat (((a.toNat - 0xE0) * 64 + payload b) * 64 + payload c)) 2
  else if a < 0xF5 then
    match rest with
    | [] => truncated 1
    | [b] => if isSecondOfFour a b then truncated 2 else broken 1
    | [b, c] =>
      if !isSecondOfFour a b then broken 1 else if !isTail c then broken 2 else truncated 3
    | b :: c :: d :: _ =>
      if !isSecondOfFour a b then broken 1
      else if !isTail c then broken 2
      else if !isTail d then broken 3
      else
        .character
          (.ofNat ((((a.toNat - 0xF0) * 64 + payload b) * 64 + payload c) * 64 + payload d)) 3
  else .invalid 1 "invalid start byte"

/-- Reads bytes of which the first `skip` belong to a character already read. -/
def decodeFrom : Nat → Bytes → Text
  | _, [] => []
  | skip + 1, _ :: rest => decodeFrom skip rest
  | 0, a :: rest =>
    match front a rest with
    | .character c more => c :: decodeFrom more rest
    | .invalid _ _ => .strayByte a :: decodeFrom 0 rest

/-- The text of some bytes; bytes of no character become surrogates. -/
def decode (bytes : Bytes) : Text :=
  decodeFrom 0 bytes

/-- Reads bytes from a position on, of which the first `skip` belong to a character already read,
and fails at the first byte of no character. -/
def decodeStrictFrom : Nat → Nat → Bytes → Except DecodeError Text
  | _, _, [] => .ok []
  | position, skip + 1, _ :: rest => decodeStrictFrom (position + 1) skip rest
  | position, 0, a :: rest =>
    match front a rest with
    | .character c more => (decodeStrictFrom (position + 1) more rest).map (c :: ·)
    | .invalid length reason => .error ⟨a, position, length, reason⟩

/-- Reads bytes of which the first `skip` have been read already; a mark stands for each run of
bytes that begins no character. -/
def decodeReplacingFrom : Nat → Bytes → Text
  | _, [] => []
  | skip + 1, _ :: rest => decodeReplacingFrom skip rest
  | 0, a :: rest =>
    match front a rest with
    | .character c more => c :: decodeReplacingFrom more rest
    | .invalid length _ => .ofNat 0xFFFD :: decodeReplacingFrom (length - 1) rest

/-- The bytes of one code point, surrogates taken as if they were characters. -/
def bytesOf (c : CodePoint) : Bytes :=
  let n := c.code
  if n < 0x80 then [.ofNat n]
  else if n < 0x800 then [.ofNat (0xC0 + n / 64), .ofNat (0x80 + n % 64)]
  else if n < 0x10000 then
    [.ofNat (0xE0 + n / 4096), .ofNat (0x80 + n / 64 % 64), .ofNat (0x80 + n % 64)]
  else
    [.ofNat (0xF0 + n / 262144), .ofNat (0x80 + n / 4096 % 64), .ofNat (0x80 + n / 64 % 64),
      .ofNat (0x80 + n % 64)]

/-- The bytes of one code point: a surrogate that stands for a byte is that byte, any other
surrogate has none. -/
def encodeOne (c : CodePoint) : Option Bytes :=
  if c.isSurrogate then c.byte?.map fun b => [b] else some (bytesOf c)

end Utf8

namespace Encoding

/-- The byte order mark. -/
def signature : Bytes := [0xEF, 0xBB, 0xBF]

/-- The bytes of one code point, if the encoding has it. -/
def encodeOne : Encoding → CodePoint → Option Bytes
  | .utf8, c | .utf8Signature, c => Utf8.encodeOne c
  | .latin1, c => if c.code < 0x100 then some [.ofNat c.code] else c.byte?.map fun b => [b]
  | .ascii, c => if c.code < 0x80 then some [.ofNat c.code] else c.byte?.map fun b => [b]

/-- Whether the encoding has a code point of its own; surrogates that stand for bytes do not count
here. -/
def isOwn : Encoding → CodePoint → Bool
  | .utf8, c | .utf8Signature, c => !c.isSurrogate
  | .latin1, c => c.code < 0x100
  | .ascii, c => c.code < 0x80

/-- The name an encoding goes by in messages. -/
def codec : Encoding → Text
  | .utf8 | .utf8Signature => "utf-8"
  | .latin1 => "latin-1"
  | .ascii => "ascii"

/-- Why a code point cannot be written. -/
def refusal : Encoding → Text
  | .utf8 | .utf8Signature => "surrogates not allowed"
  | .latin1 => "ordinal not in range(256)"
  | .ascii => "ordinal not in range(128)"

/-- Writes a text from a position on. The run of the error goes on as far as no code point is one
of the encoding's own. -/
def encodeFrom (e : Encoding) : Nat → Text → Except EncodeError Bytes
  | _, [] => .ok []
  | position, c :: rest =>
    match e.encodeOne c with
    | some bytes => (encodeFrom e (position + 1) rest).map (bytes ++ ·)
    | none =>
      let run := (rest.takeWhile fun d => !e.isOwn d).length
      .error ⟨e.codec, c, position, position + 1 + run, e.refusal⟩

/-- The bytes of a text. -/
def encode (e : Encoding) (t : Text) : Except EncodeError Bytes :=
  match e with
  | .utf8Signature => (encodeFrom e 0 t).map (signature ++ ·)
  | _ => encodeFrom e 0 t

/-- The text of some bytes. With a signature, a byte order mark at the front is left out, and bytes
that only begin one are no text at all. -/
def decode : Encoding → Bytes → Text
  | .utf8, bytes => Utf8.decode bytes
  | .utf8Signature, bytes =>
    if bytes.length < 3 ∧ bytes.isPrefixOf signature then []
    else if signature.isPrefixOf bytes then Utf8.decode (bytes.drop 3)
    else Utf8.decode bytes
  | .latin1, bytes => bytes.map fun b => .ofNat b.toNat
  | .ascii, bytes => bytes.map fun b => if b < 0x80 then .ofNat b.toNat else .strayByte b

/-- The text of some bytes in UTF-8 in which every byte belongs to a character. -/
def decodeStrict (bytes : Bytes) : Except DecodeError Text :=
  Utf8.decodeStrictFrom 0 0 bytes

/-- The text of some bytes in UTF-8, with a mark for bytes that belong to no character. -/
def decodeReplacing (bytes : Bytes) : Text :=
  Utf8.decodeReplacingFrom 0 bytes

/-- A text as UTF-8 that must not hold surrogates. The run of the error is the run of surrogates. -/
def checkScalars (t : Text) : Except EncodeError Unit :=
  match t.dropWhile fun c => !c.isSurrogate with
  | [] => .ok ()
  | c :: rest =>
    let position := t.length - (rest.length + 1)
    let run := (rest.takeWhile CodePoint.isSurrogate).length
    .error ⟨"utf-8", c, position, position + 1 + run, "surrogates not allowed"⟩

/-- Whether a code point can stand in a path. Null cannot, nor can a surrogate that stands for no
byte. -/
def isNameable (c : CodePoint) : Bool :=
  c.code != 0 && (Utf8.encodeOne c).isSome

/-- The bytes by which the operating system knows a name. They count only if all code points of the
name are nameable, else no operation gets as far as to use them. -/
def nameBytes (t : Text) : Bytes :=
  t.flatMap fun c => (Utf8.encodeOne c).getD (Utf8.bytesOf c)

/-- The spelling of an encoding's name that decides: letters and digits in lower case, with one
underscore for each run of anything else between them. -/
def normalizeName (name : Text) : Text :=
  let kept (c : CodePoint) : Bool := c.isAsciiLetter || c.isAsciiDigit || c == ('.' : CodePoint)
  let spaced := name.map fun c => if kept c then c.asciiLower else (' ' : CodePoint)
  Text.joinWith "_" ((Text.cutAt ' ' spaced).filter fun part => !part.isEmpty)

/-- The name of each encoding. -/
def names : List (Encoding × List String) :=
  [(.utf8, ["utf_8"]), (.utf8Signature, ["utf_8_sig"]), (.latin1, ["latin_1"]),
    (.ascii, ["ascii"])]

/-- The other names that each encoding goes by. -/
def aliases : List (Encoding × List String) := [
  (.utf8, ["utf8", "u8", "utf", "utf8_ucs2", "utf8_ucs4", "cp65001"]),
  (.latin1, ["latin1", "latin", "l1", "iso8859_1", "iso_8859_1", "iso8859", "8859", "cp819",
    "csisolatin1", "ibm819", "iso_8859_1_1987", "iso_ir_100"]),
  (.ascii, ["us_ascii", "us", "646", "ansi_x3.4_1968", "ansi_x3_4_1968", "ansi_x3.4_1986", "cp367",
    "csascii", "ibm367", "iso646_us", "iso_646.irv_1991", "iso_ir_6"])]

/-- The encoding with a spelling in a table. -/
def lookup? (table : List (Encoding × List String)) (spelling : Text) : Option Encoding :=
  (table.find? fun (_, spellings) => spellings.any fun s => Text.ofString s == spelling).map
    Prod.fst

/-- A text with underscores for its points. -/
def withoutPoints (t : Text) : Text :=
  t.map fun c => if c = ('.' : CodePoint) then '_' else c

/-- The encoding that goes by a name. In another name than the first, points may stand for
underscores. -/
def ofName? (name : Text) : Option Encoding :=
  let spelling := normalizeName name
  lookup? aliases spelling <|> lookup? aliases (withoutPoints spelling) <|> lookup? names spelling

end Encoding

end Renewal
