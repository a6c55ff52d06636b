import Renewal.Text.Cells
import Renewal.World

/-! # Printing lines

A line is printed as it is, except that a tab becomes a space and more spaces up to the next eighth
cell, some control characters are left out, and a newline follows. Wide characters take two cells.
-/

namespace Renewal

namespace Console

/-- Control characters that are left out: bell, backspace, vertical tab, form feed and carriage
return. -/
def isDropped (c : CodePoint) : Bool :=
  [7, 8, 11, 12, 13].contains c.code

/-- The distance between tab stops. -/
def tabWidth : Nat := 8

/-- Where the space that stands for a tab ends, after a piece that began at a cell. -/
def cellAfter (cell : Nat) (piece : Text) : Nat :=
  cell + Text.cells (piece ++ [(' ' : CodePoint)])

/-- How many cells are missing to the next tab stop. -/
def missingCells (cell : Nat) : Nat :=
  (tabWidth - cell % tabWidth) % tabWidth

/-- Joins the pieces of a line between its tabs by spaces up to the next tab stop; `cell` is where
the first of them starts. -/
def joinPieces : (cell : Nat) → List Text → Text
  | _, [] => []
  | _, [piece] => piece
  | cell, piece :: rest =>
    let cell := cellAfter cell piece
    let missing := missingCells cell
    piece ++ List.replicate (1 + missing) (' ' : CodePoint) ++ joinPieces (cell + missing) rest

/-- Replaces the tabs of a line by spaces. -/
def expandTabs (line : Text) : Text :=
  joinPieces 0 (Text.cutAt '\t' line)

/-- What is printed for a text. -/
def render (t : Text) : Text :=
  let lines := Text.cutAt '\n' (t.filter fun c => !isDropped c)
  Text.joinWith "\n" (lines.map expandTabs) ++ [('\n' : CodePoint)]

/-- Prints a text; undecodable bytes cannot be printed. -/
def print (t : Text) : Action Unit := do
  let line := render t
  Action.ofExcept .print (Encoding.checkScalars line)
  modify fun w => { w with printed := w.printed ++ line }

end Console

/-- Where the lines of a run go. -/
inductive Sink where
  | discard
  /-- They are kept in the world. -/
  | collect
  | print
deriving DecidableEq

/-- Emits a line. -/
def Sink.emit : Sink → Text → Action Unit
  | .discard, _ => pure ()
  | .collect, line => modify fun w => { w with emitted := w.emitted ++ [line] }
  | .print, line => Console.print line

end Renewal
