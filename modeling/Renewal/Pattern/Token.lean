import Renewal.Text.CodePoint

/-! # Tokens of patterns and templates

Patterns and templates are written with the backslash as escape. A token is a code point that
stands alone or one with the backslash before it; a backslash that nothing follows is a token of
its own kind.
-/

namespace Renewal

/-- A token of a pattern or a template. -/
inductive Token where
  | plain (c : CodePoint)
  /-- A code point after a backslash. -/
  | escaped (c : CodePoint)
  /-- A backslash at the very end. -/
  | dangling
deriving DecidableEq

namespace Token

/-- The tokens of a text. -/
def ofText : Text → List Token
  | [] => []
  | [c] => if c = ('\\' : CodePoint) then [.dangling] else [.plain c]
  | c :: d :: rest =>
    if c = ('\\' : CodePoint) then .escaped d :: ofText rest else .plain c :: ofText (d :: rest)

/-- How a token is written. -/
def text : Token → Text
  | .plain c => [c]
  | .escaped c => ['\\', c]
  | .dangling => ['\\']

/-- The code point of a token without a backslash. -/
def plain? : Token → Option CodePoint
  | .plain c => some c
  | _ => none

/-- How many code points a token has. -/
def width : Token → Nat
  | .escaped _ => 2
  | _ => 1

end Token

end Renewal
