import Renewal.Text.CodePoint

/-! # White space and lines

Which code points are white space, how a text is cut into words and into lines.
-/

namespace Renewal

/-- White space: the control characters from tab to carriage return and from U+001C to U+001F, the
next-line control, and the space, line and paragraph separators. -/
def CodePoint.isBlank (c : CodePoint) : Bool :=
  let n := c.code
  (0x09 ≤ n && n ≤ 0x0D) || (0x1C ≤ n && n ≤ 0x20) || n == 0x85 || n == 0xA0 || n == 0x1680 ||
    (0x2000 ≤ n && n ≤ 0x200A) || n == 0x2028 || n == 0x2029 || n == 0x202F || n == 0x205F ||
    n == 0x3000

/-- The code points that end a line, the carriage return included. -/
def CodePoint.endsLine (c : CodePoint) : Bool :=
  let n := c.code
  (0x0A ≤ n && n ≤ 0x0D) || (0x1C ≤ n && n ≤ 0x1E) || n == 0x85 || n == 0x2028 || n == 0x2029

namespace Text

/-- A text without white space at its ends. -/
def strip (t : Text) : Text :=
  dropEndWhile CodePoint.isBlank (t.dropWhile CodePoint.isBlank)

/-- A text without any white space. -/
def squeeze (t : Text) : Text :=
  t.filter fun c => !c.isBlank

/-- The words of a text: what stands between runs of white space, nothing empty. -/
def words : Text → List Text
  | [] => []
  | c :: rest =>
    if c.isBlank then words rest
    else
      match rest, words rest with
      | next :: _, word :: others =>
        if next.isBlank then [c] :: word :: others else (c :: word) :: others
      | _, others => [c] :: others

/-- A text with each run of white space replaced by one space and none at the ends. -/
def normalizeBlanks (t : Text) : Text :=
  joinWith " " t.words

/-- The lines of a text, each with the line end that closes it. A carriage return and the newline
after it close a line together. -/
def lines : Text → List Text
  | [] => []
  | c :: rest =>
    let joined := c = ('\r' : CodePoint) ∧ rest.head? = some ('\n' : CodePoint)
    if c.endsLine ∧ ¬joined then [c] :: lines rest
    else
      match lines rest with
      | [] => [[c]]
      | first :: others => (c :: first) :: others

/-- A line without the line end that closes it. -/
def dropLineEnd (line : Text) : Text :=
  match line.reverse with
  | [] => []
  | c :: before =>
    if c = ('\n' : CodePoint) ∧ before.head? = some ('\r' : CodePoint) then before.tail.reverse
    else if c.endsLine then before.reverse
    else line

/-- Carriage returns, alone or before a newline, become newlines. -/
def unifyNewlines : Text → Text
  | [] => []
  | c :: rest =>
    if c = ('\r' : CodePoint) then
      if rest.head? = some ('\n' : CodePoint) then unifyNewlines rest
      else ('\n' : CodePoint) :: unifyNewlines rest
    else c :: unifyNewlines rest

end Text

end Renewal
