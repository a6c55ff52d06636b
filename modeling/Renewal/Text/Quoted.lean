import Renewal.Text.Printable

/-! # Quoted texts

How a message shows a text between quotes, so that every code point can be told from every other:
single quotes, or double quotes where the text holds single quotes only; controls and other
characters that cannot be shown are written by number.
-/

namespace Renewal.Text

/-- A code point that is not shown as it is, written by its number. -/
def escapeCode (c : CodePoint) : Text :=
  if c.code < 0x100 then concat ["\\x", hex 2 c.code]
  else if c.code < 0x10000 then concat ["\\u", hex 4 c.code]
  else concat ["\\U", hex 8 c.code]

/-- One code point inside quotes. -/
def quotedCode (quote c : CodePoint) : Text :=
  if c = quote ∨ c = ('\\' : CodePoint) then ['\\', c]
  else if c = ('\t' : CodePoint) then "\\t"
  else if c = ('\n' : CodePoint) then "\\n"
  else if c = ('\r' : CodePoint) then "\\r"
  else if c.isPrintable then [c]
  else escapeCode c

/-- The quote that a text is shown in. -/
def quoteFor (t : Text) : CodePoint :=
  if t.contains ('\'' : CodePoint) && !t.contains ('"' : CodePoint) then '"' else '\''

/-- A text between quotes. -/
def quoted (t : Text) : Text :=
  let quote := quoteFor t
  quote :: t.flatMap (quotedCode quote) ++ [quote]

/-- A list of texts, each between quotes. -/
def quotedList (ts : List Text) : Text :=
  concat ["[", joinWith ", " (ts.map quoted), "]"]

end Renewal.Text
