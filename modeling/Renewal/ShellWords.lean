import Renewal.Text.CodePoint

/-! # Words of a command line

A command line is cut into words the way a shell does it: white space separates words, quotes keep
it, and a backslash keeps the next code point. Between double quotes a backslash counts only before
a double quote or another backslash. `ShellWords.join` writes words so that a shell reads them back.
-/

namespace Renewal.ShellWords

/-- Why a command line cannot be cut into words. -/
inductive WordsError where
  | noClosingQuote
  | noEscapedCode
deriving DecidableEq

/-- What is said of a command line that cannot be cut into words. -/
def WordsError.message : WordsError → Text
  | .noClosingQuote => "No closing quotation"
  | .noEscapedCode => "No escaped character"

/-- Where in a command line a reader is. -/
inductive State where
  | between
  | word
  /-- Between quotes of a kind. -/
  | quoted (quote : CodePoint)
  /-- After a backslash, between double quotes or not. -/
  | escaped (inQuotes : Bool)
deriving DecidableEq

/-- White space between words. -/
def isSeparator (c : CodePoint) : Bool :=
  c.code == 32 || c.code == 9 || c.code == 13 || c.code == 10

/-- The quotes. -/
def isQuote (c : CodePoint) : Bool :=
  c == ('\'' : CodePoint) || c == ('"' : CodePoint)

/-- What comes after a code point outside quotes that is no separator: the state, and the code point
if it belongs to the word. -/
def wordStep (c : CodePoint) : State × Text :=
  if isQuote c then (.quoted c, [])
  else if c = ('\\' : CodePoint) then (.escaped false, [])
  else (.word, [c])

/-- Cuts the rest of a command line into words, after `read` of the current word. -/
def splitFrom : State → (read : Text) → Text → Except WordsError (List Text)
  | .between, _, [] => .ok []
  | .word, read, [] => .ok [read]
  | .quoted _, _, [] => .error .noClosingQuote
  | .escaped _, _, [] => .error .noEscapedCode
  | .between, _, c :: rest =>
    if isSeparator c then splitFrom .between [] rest
    else splitFrom (wordStep c).1 (wordStep c).2 rest
  | .word, read, c :: rest =>
    if isSeparator c then (splitFrom .between [] rest).map (read :: ·)
    else splitFrom (wordStep c).1 (read ++ (wordStep c).2) rest
  | .quoted quote, read, c :: rest =>
    if c = quote then splitFrom .word read rest
    else if c = ('\\' : CodePoint) ∧ quote = ('"' : CodePoint) then
      splitFrom (.escaped true) read rest
    else splitFrom (.quoted quote) (read ++ [c]) rest
  | .escaped inQuotes, read, c :: rest =>
    if inQuotes then
      let kept : Text := if c = ('\\' : CodePoint) ∨ c = ('"' : CodePoint) then [c] else ['\\', c]
      splitFrom (.quoted '"') (read ++ kept) rest
    else splitFrom .word (read ++ [c]) rest

/-- The words of a command line. -/
def split (t : Text) : Except WordsError (List Text) :=
  splitFrom .between [] t

/-- Code points that a shell takes as they are. -/
def isSafe (c : CodePoint) : Bool :=
  c.isAsciiLetter || c.isAsciiDigit || (Text.ofString "_@%+=:,./-").contains c

/-- A word as a shell reads it back. -/
def quote (word : Text) : Text :=
  if word.isEmpty then "''"
  else if word.all isSafe then word
  else
    .concat ["'", word.flatMap fun c => if c = ('\'' : CodePoint) then "'\"'\"'" else [c], "'"]

/-- Words as a command line. -/
def join (words : List Text) : Text :=
  Text.joinWith " " (words.map quote)

end Renewal.ShellWords
