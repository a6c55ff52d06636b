import Renewal.Message.Error
import Renewal.Message.Layout

/-! # Messages with fields

A message may have fields in braces: a name, after an exclamation mark how the value is shown, and
after a colon how it is laid out. Doubled braces stand for themselves. A message that is not
written as it should be is read up to the fault, so that the fields before it count first.
-/

namespace Renewal.Message

/-- A field of a message. -/
structure Field where
  /-- What it asks for: a name and parts of it. -/
  name : Text
  /-- How the value is shown. -/
  conversion : Option CodePoint := none
  /-- How the value is laid out. -/
  layout : Text := []
  /-- Whether the layout has fields itself. -/
  nested : Bool := false
deriving DecidableEq

/-- A piece of a message. -/
inductive Piece where
  | literal (c : CodePoint)
  | field (f : Field)
  /-- Nothing is read after it. -/
  | fault (e : WritingFault)
deriving DecidableEq

/-- What the reader is in the middle of. -/
inductive Mode where
  | outside
  /-- In a field's name, perhaps in brackets. -/
  | inName (read : Text) (bracket : Bool)
  /-- After a name and an exclamation mark. -/
  | atConversion (name : Text)
  /-- After a conversion. -/
  | afterConversion (f : Field)
  /-- In a layout with so many open braces. -/
  | inLayout (f : Field) (depth : Nat)

/-- The opening brace. -/
def openBrace : CodePoint := '\x7b'

/-- The closing brace. -/
def closeBrace : CodePoint := '\x7d'

/-- The pieces of what is left of a message. -/
def piecesFrom : Mode → Text → List Piece
  | .outside, [] => []
  | .outside, [c] =>
    if c = openBrace then [.fault .singleOpen]
    else if c = closeBrace then [.fault .singleClose]
    else [.literal c]
  | .outside, c :: d :: rest =>
    if c = openBrace ∨ c = closeBrace then
      if d = c then .literal c :: piecesFrom .outside rest
      else if c = openBrace then piecesFrom (.inName [] false) (d :: rest)
      else [.fault .singleClose]
    else .literal c :: piecesFrom .outside (d :: rest)
  | .inName _ _, [] => [.fault .unclosed]
  | .inName read true, c :: rest => piecesFrom (.inName (read ++ [c]) (c ≠ (']' : CodePoint))) rest
  | .inName read false, c :: rest =>
    if c = openBrace then [.fault .openInName]
    else if c = closeBrace then .field { name := read } :: piecesFrom .outside rest
    else if c = (':' : CodePoint) then piecesFrom (.inLayout { name := read } 0) rest
    else if c = ('!' : CodePoint) then piecesFrom (.atConversion read) rest
    else piecesFrom (.inName (read ++ [c]) (c = ('[' : CodePoint))) rest
  | .atConversion _, [] => [.fault .noConversion]
  | .atConversion name, c :: rest =>
    piecesFrom (.afterConversion { name, conversion := some c }) rest
  | .afterConversion _, [] => [.fault .unclosedLayout]
  | .afterConversion f, c :: rest =>
    if c = closeBrace then .field f :: piecesFrom .outside rest
    else if c = (':' : CodePoint) then piecesFrom (.inLayout f 0) rest
    else [.fault .afterConversion]
  | .inLayout _ _, [] => [.fault .unclosedLayout]
  | .inLayout f depth, c :: rest =>
    if c = closeBrace ∧ depth = 0 then .field f :: piecesFrom .outside rest
    else
      let f := { f with layout := f.layout ++ [c], nested := f.nested || c == openBrace }
      let depth := if c = openBrace then depth + 1 else if c = closeBrace then depth - 1 else depth
      piecesFrom (.inLayout f depth) rest

/-- The pieces of a message. -/
def pieces (t : Text) : List Piece :=
  piecesFrom .outside t

/-- A step from a value to a part of it. -/
inductive Step where
  /-- After a point. -/
  | part (name : Text)
  /-- In brackets. -/
  | item (key : Text)
  /-- Nothing is read after it. -/
  | fault (e : WritingFault)
deriving DecidableEq

/-- What the reader of steps is in the middle of. -/
inductive StepMode where
  | between
  | inPart (read : Text)
  | inItem (read : Text)

/-- The steps of what is left of a field's name. -/
def stepsFrom : StepMode → Text → List Step
  | .between, [] => []
  | .between, c :: rest =>
    if c = ('.' : CodePoint) then stepsFrom (.inPart []) rest
    else if c = ('[' : CodePoint) then stepsFrom (.inItem []) rest
    else [.fault .afterBracket]
  | .inPart read, [] => [.part read]
  | .inPart read, c :: rest =>
    if c = ('.' : CodePoint) then .part read :: stepsFrom (.inPart []) rest
    else if c = ('[' : CodePoint) then .part read :: stepsFrom (.inItem []) rest
    else stepsFrom (.inPart (read ++ [c])) rest
  | .inItem _, [] => [.fault .unclosedBracket]
  | .inItem read, c :: rest =>
    if c = (']' : CodePoint) then .item read :: stepsFrom .between rest
    else stepsFrom (.inItem (read ++ [c])) rest

/-- The first name that a field asks for, and the steps from there. -/
def pathOf (name : Text) : Text × List Step :=
  let first := name.takeWhile fun c => c != ('.' : CodePoint) && c != ('[' : CodePoint)
  (first, stepsFrom .between (name.drop first.length))

/-- The number that a text of decimal digits writes; nothing for any other text. -/
def number? (t : Text) : Except WritingFault (Option Nat) :=
  match numberFront none t with
  | none => .error .tooManyDigits
  | some (n, rest) => .ok (if rest.isEmpty then n else none)

end Renewal.Message
