import Renewal.Text.Encoding

/-! # Codecs

A codec reads bytes as text and writes text as bytes, and may refuse either. Codecs that shift
between sets of characters end a text with bytes that lead back to the set it began with; these are
kept apart, since whoever writes to a file piece by piece may leave them out. The encodings of the
library are codecs that refuse no bytes and need no such ending.
-/

namespace Renewal

/-- Why a codec refuses bytes or a text. -/
inductive CodecError where
  | encode (e : EncodeError)
  | decode (codec : Text) (e : DecodeError)
  /-- A reason of its own, with the name of its kind. -/
  | other (kind message : Text)
deriving DecidableEq

namespace CodecError

/-- What is said if a codec refuses something. -/
def message : CodecError → Text
  | .encode e => e.message
  | .decode codec e => e.messageIn codec
  | .other _ message => message

/-- The name of the kind of an error. -/
def kind : CodecError → Text
  | .encode _ => "UnicodeEncodeError"
  | .decode _ _ => "UnicodeDecodeError"
  | .other kind _ => kind

end CodecError

/-- What a codec makes of a text. -/
structure Encoded where
  /-- The bytes of its code points. -/
  body : Bytes
  /-- The bytes that lead back to where a text begins. -/
  closing : Bytes := []
deriving DecidableEq

/-- All the bytes of a text. -/
def Encoded.whole (e : Encoded) : Bytes :=
  e.body ++ e.closing

/-- A way to read and write text. -/
structure Codec where
  decode : Bytes → Except CodecError Text
  encode : Text → Except CodecError Encoded

/-- The codec of an encoding. -/
def Encoding.toCodec (e : Encoding) : Codec where
  decode bytes := .ok (e.decode bytes)
  encode t :=
    match e.encode t with
    | .ok body => .ok { body }
    | .error error => .error (.encode error)

end Renewal
