import Renewal.Text.Quoted

/-! # Messages that cannot be filled

Why the fields of a message cannot be filled: the message is not written as it should be, a value
is missing, or a value cannot be laid out as asked.
-/

namespace Renewal.Message

/-- What is wrong with the way a message is written. -/
inductive WritingFault where
  /-- An opening brace ends the message. -/
  | singleOpen
  /-- A closing brace was never opened. -/
  | singleClose
  /-- An opening brace stands in a field's name. -/
  | openInName
  /-- A field has no end. -/
  | unclosed
  /-- An exclamation mark ends the message. -/
  | noConversion
  /-- Something else than a colon follows a conversion. -/
  | afterConversion
  /-- A layout has no end. -/
  | unclosedLayout
  /-- A layout in a layout has fields. -/
  | tooDeep
  /-- A part of a value is asked for without its name. -/
  | emptyPart
  /-- A bracket is never closed. -/
  | unclosedBracket
  /-- Something else than a point or a bracket follows a bracket. -/
  | afterBracket
  /-- A number has too many digits. -/
  | tooManyDigits
deriving DecidableEq

/-- Why there is no value for a field. -/
inductive ValueFault where
  /-- No value has this name. -/
  | missing (name : Text)
  /-- A value with named parts has none with this number. -/
  | missingNumber (n : Int)
  /-- No value has this number. -/
  | missingPosition (n : Int)
  /-- A list has no item of this number. -/
  | outsideList
  /-- A text has no code point of this number. -/
  | outsideText
  /-- A value of a kind has no part of this name. -/
  | noPart (kind name : Text)
  /-- The kind itself has no part of this name. -/
  | noPartOfKind (kind name : Text)
  /-- A value of a kind has no items. -/
  | noItems (kind : Text)
  /-- A kind itself has no items. -/
  | noItemsOfKind (kind : Text)
  /-- An item of a list is asked for by name. -/
  | nameInList
  /-- A code point of a text is asked for by name. -/
  | nameInText
  | unknownConversion (c : CodePoint)
deriving DecidableEq

/-- Why a value cannot be laid out as asked. -/
inductive LayoutFault where
  /-- Values of this kind have no layouts. -/
  | unsupported (kind : Text)
  | invalid (layout kind : Text)
  | unknownCode (c : CodePoint) (kind : Text)
  | bothSeparators
  | separatorWith (separator c : CodePoint)
  | missingPrecision
  | precisionTooBig
  /-- A width or a precision has too many digits. -/
  | tooManyDigits
  | spaceInText
  | signInText
  | zeroInText
  | alternateInText
  | afterSignInText
  | precisionInInteger
  | zeroInInteger
  | signInCharacter
  | alternateInCharacter
  /-- A number is too large for a code point. -/
  | noCharacter
  /-- A number is too large for a machine word. -/
  | noWord
  /-- A whole number is too large for a number with a fraction. -/
  | noReal
  /-- The result is too long to be held. -/
  | tooLong
deriving DecidableEq

/-- Why the fields of a message cannot be filled. -/
inductive FillError where
  | writing (e : WritingFault)
  | value (e : ValueFault)
  | layout (e : LayoutFault)
deriving DecidableEq

/-- What is said of a message that is not written as it should be. -/
def WritingFault.message : WritingFault → Text
  | .singleOpen => "Single '\x7b' encountered in format string"
  | .singleClose => "Single '\x7d' encountered in format string"
  | .openInName => "unexpected '\x7b' in field name"
  | .unclosed => "expected '\x7d' before end of string"
  | .noConversion => "end of string while looking for conversion specifier"
  | .afterConversion => "expected ':' after conversion specifier"
  | .unclosedLayout => "unmatched '\x7b' in format spec"
  | .tooDeep => "Max string recursion exceeded"
  | .emptyPart => "Empty attribute in format string"
  | .unclosedBracket => "Missing ']' in format string"
  | .afterBracket => "Only '.' or '[' may follow ']' in format field specifier"
  | .tooManyDigits => "Too many decimal digits in format string"

/-- A code point as it is shown in a message about a code: as it is in ASCII, else by number. -/
def shownCode (c : CodePoint) : Text :=
  if 32 < c.code ∧ c.code < 128 then [c] else .concat ["\\x", .hex 1 c.code]

/-- What is said if there is no value for a field. -/
def ValueFault.message : ValueFault → Text
  | .missing name => name.quoted
  | .missingNumber n => .ofInt n
  | .missingPosition n =>
    .concat ["Replacement index ", .ofInt n, " out of range for positional args tuple"]
  | .outsideList => "list index out of range"
  | .outsideText => "string index out of range"
  | .noPart kind name => .concat ["'", kind, "' object has no attribute '", name, "'"]
  | .noPartOfKind kind name => .concat ["type object '", kind, "' has no attribute '", name, "'"]
  | .noItems kind => .concat ["'", kind, "' object is not subscriptable"]
  | .noItemsOfKind kind => .concat ["type '", kind, "' is not subscriptable"]
  | .nameInList => "list indices must be integers or slices, not str"
  | .nameInText => "string indices must be integers, not 'str'"
  | .unknownConversion c => .concat ["Unknown conversion specifier ",
      (if c.code = 127 then "\\x7f" else shownCode c)]

/-- What is said of a value that cannot be laid out as asked. -/
def LayoutFault.message : LayoutFault → Text
  | .unsupported kind => .concat ["unsupported format string passed to ", kind, ".__format__"]
  | .invalid layout kind =>
    .concat ["Invalid format specifier '", layout, "' for object of type '", kind, "'"]
  | .unknownCode c kind =>
    .concat ["Unknown format code '", shownCode c, "' for object of type '", kind, "'"]
  | .bothSeparators => "Cannot specify both ',' and '_'."
  | .separatorWith separator c =>
    .concat ["Cannot specify '", [separator], "' with '", shownCode c, "'."]
  | .missingPrecision => "Format specifier missing precision"
  | .precisionTooBig => "precision too big"
  | .tooManyDigits => "Too many decimal digits in format string"
  | .spaceInText => "Space not allowed in string format specifier"
  | .signInText => "Sign not allowed in string format specifier"
  | .zeroInText => "Negative zero coercion (z) not allowed in string format specifier"
  | .alternateInText => "Alternate form (#) not allowed in string format specifier"
  | .afterSignInText => "'=' alignment not allowed in string format specifier"
  | .precisionInInteger => "Precision not allowed in integer format specifier"
  | .zeroInInteger => "Negative zero coercion (z) not allowed in integer format specifier"
  | .signInCharacter => "Sign not allowed with integer format specifier 'c'"
  | .alternateInCharacter => "Alternate form (#) not allowed with integer format specifier 'c'"
  | .noCharacter => "%c arg not in range(0x110000)"
  | .noWord => "Python int too large to convert to C long"
  | .noReal => "int too large to convert to float"
  | .tooLong => ""

/-- What is said if the fields of a message cannot be filled. -/
def FillError.message : FillError → Text
  | .writing e => e.message
  | .value e => e.message
  | .layout e => e.message

end Renewal.Message
