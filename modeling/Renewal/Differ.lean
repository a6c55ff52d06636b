import Renewal.Diff.Unified
import Renewal.FileSystem.Operation

/-! # Comparing files

A differ gives the unified diff of two files without regard to white space. The native differ reads
the files itself; another lets a program do it.
-/

namespace Renewal

/-- A way to compare files. -/
inductive Differ where
  /-- Reads the files in an encoding and shows so many lines around changes. -/
  | native (encoding : Text) (context : Int)
  /-- Runs a program. -/
  | program (command : List Text) (timeout : Option Int)
  /-- Gives prepared answers, one for each comparison. -/
  | prepared (answers : List (Except DiffError Text))

namespace Differ

/-- The lines of a file. -/
def readLines (encoding : Text) (path : Path) : Action (List Text) := do
  let text ← tryCatch (FileSystem.readText path.text encoding) fun
    | .file e => throw (.diff (.cannotRead path.text e))
    | other => throw other
  return text.lines

/-- The diff of two files by reading them. -/
def diffNative (encoding : Text) (context : Int) (old new : Path) : Action Text := do
  let oldLines ← readLines encoding old
  let newLines ← readLines encoding new
  return Diff.unified oldLines newLines old.text new.text context true

/-- The diff of two files by running a program; the status one only says that they differ. -/
def diffByProgram (command : List Text) (timeout : Option Int) (old new : Path) :
    Action Text := do
  let command := command ++ [old.text, new.text]
  let cannotRun (e : LaunchError) : Failure := .diff (.cannotRun command e)
  match ← Action.runProgram command timeout with
  | .failed errno => throw (cannotRun (.system (.system errno command.head? none)))
  | .expired seconds _ => throw (cannotRun (.expired command seconds))
  | .finished status output errors =>
    let output := output.readReplacing
    if 1 < status then
      Action.log .debug [ShellWords.join command, " exited with ", .ofInt status]
      throw (.diff (.exited command status (output ++ errors.readReplacing)))
    return output

/-- The diff of two files; `turn` counts the comparisons before this one. -/
def diff (differ : Differ) (turn : Nat) (old new : Path) : Action Text :=
  match differ with
  | .native encoding context => diffNative encoding context old new
  | .program command timeout => diffByProgram command timeout old new
  | .prepared answers =>
    match answers[turn]? with
    | some (.ok output) => pure output
    | some (.error e) => throw (.diff e)
    | none => pure []

/-- How many lines are shown around changes unless told otherwise. -/
def defaultContext : Int := 3

/-- The differ that a setting names. -/
def named (name diffCommand encoding : Text) : Except Failure Differ :=
  if name = ("native" : Text) then .ok (.native encoding defaultContext)
  else if name = ("external" : Text) then
    match ShellWords.split diffCommand with
    | .ok command => .ok (.program command none)
    | .error e => .error (.words e)
  else .error (.unknownDiffer name)

end Differ

end Renewal
