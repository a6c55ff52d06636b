import Renewal.Backup.Name
import Renewal.Console
import Renewal.Differ
import Renewal.Walker

/-! # Using saved copies

Saved copies are found by their names. They can be put back in place of the files they were made
of, or be compared with them.
-/

namespace Renewal.Backup

/-- A saved copy and the file it was made of. -/
structure Pair where
  backup : Path
  live : Path
deriving DecidableEq

/-- The pairs of saved copies; a path that is none is left out. -/
def pairsOf (suffix : Text) : List Path → Action (List Pair)
  | [] => pure []
  | backup :: rest => do
    match ← Action.ofExcept .name (livePath? backup suffix) with
    | none =>
      Action.log .debug ["Ignoring malformed backup name ", backup.text]
      pairsOf suffix rest
    | some live =>
      let more ← pairsOf suffix rest
      return ⟨backup, live⟩ :: more

/-- The saved copies under a root. -/
def findAll (root : Path) (walker : Walker) (suffix : Text) : Action (List Pair) := do
  let pattern : Text := ('*' : CodePoint) :: suffix
  pairsOf suffix (← walker.walk root pattern)

/-- Puts a saved copy back. -/
def restore (pair : Pair) : Action Path := do
  FileSystem.replace pair.backup.text pair.live.text
  Action.log .debug ["Restored ", pair.live.text, " from ", pair.backup.text]
  return pair.live

/-- Puts all saved copies back; gives the files that were restored. -/
def reset (root : Path) (walker : Walker) (suffix : Text) : Action (List Path) := do
  (← findAll root walker suffix).mapM restore

/-- What came of a comparison. -/
structure DiffOutcome where
  pair : Pair
  output : Text
  error : Option Text := none
deriving DecidableEq

/-- A text without newlines at its end. -/
def dropNewlines (t : Text) : Text :=
  Text.dropEndWhile (· == ('\n' : CodePoint)) t

/-- Compares a saved copy with its file. A failure to compare them is kept in the outcome. -/
def compare (differ : Differ) (turn : Nat) (pair : Pair) : Action DiffOutcome :=
  tryCatch
    (do
      let output ← differ.diff turn pair.backup pair.live
      return { pair, output })
    fun
      | .diff e => do
        Action.log .error ["Diff failed for ", pair.backup.text, ": ", e.message]
        return { pair, output := e.output, error := some e.message }
      | other => throw other

/-- The lines that tell an outcome. -/
def DiffOutcome.lines (o : DiffOutcome) : List Text :=
  let head : Text := .concat ["---diff -wu ", o.pair.backup.text, " ", o.pair.live.text]
  let failure : List Text := match o.error with
    | some e => if e.isEmpty then [] else [.concat ["diff failed: ", e]]
    | none => []
  head :: dropNewlines o.output :: failure

/-- Compares pairs from a turn on and emits the outcomes. -/
def comparePairs (differ : Differ) (sink : Sink) :
    (turn : Nat) → List Pair → Action (List DiffOutcome)
  | _, [] => pure []
  | turn, pair :: rest => do
    let outcome ← compare differ turn pair
    outcome.lines.forM sink.emit
    let more ← comparePairs differ sink (turn + 1) rest
    return outcome :: more

/-- Compares all saved copies under a root with their files. -/
def diff (root : Path) (walker : Walker) (differ : Differ) (suffix : Text) (sink : Sink) :
    Action (List DiffOutcome) := do
  comparePairs differ sink 0 (← findAll root walker suffix)

end Renewal.Backup
