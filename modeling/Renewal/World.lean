import Renewal.Failure
import Renewal.FileSystem.Resolve
import Renewal.Log.Level
import Renewal.Text.Iso2022Jp

/-! # The world of an action

An action changes a world and gives a value or a failure; what it has changed before a failure
stays changed. The world has the file tree, the programs that can be run, and what has been logged,
emitted and printed. File operations can be made to fail: `World.faults` is asked before each of
those that `FileCall` names, and `World.shortages` where room is needed. A world knows every tree
that it has had, so that one can say what is found if an action is cut off.

The world also decides what differs from system to system: how the encodings beyond the library's
own read and write (`World.codecs`), in which order directories are listed (`World.listing`), and
the limits of paths and of nested documents. What it leaves out are times, owners and hard links,
rights of access, other programs that change files meanwhile, and failures of the calls that only
tell what kind of entry stands at a path, apart from those that paths themselves cause.
-/

namespace Renewal

/-- A record of the log. -/
structure LogRecord where
  level : Level
  message : Text
  /-- The kind of the failure that is logged with it. -/
  failure : Option Text := none
deriving DecidableEq

/-- A program that was started. -/
structure ProgramCall where
  command : List Text
  /-- How many seconds it may take. -/
  timeout : Option Int
  /-- The identifier that is handed on to it. -/
  requestId : Text
deriving DecidableEq

/-- What a program has printed. -/
inductive Printed where
  | bytes (data : Bytes)
  /-- What has been read already. -/
  | text (t : Text)
deriving DecidableEq

namespace Printed

/-- What was printed, as text that has to be valid; every end of a line is a newline. -/
def read : Printed → Except DecodeError Text
  | .bytes data => (Encoding.decodeStrict data).map Text.unifyNewlines
  | .text t => .ok t

/-- What was printed, as text with marks where it is not valid. -/
def readReplacing : Printed → Text
  | .bytes data => (Encoding.decodeReplacing data).unifyNewlines
  | .text t => t

end Printed

/-- How a program ends. -/
inductive ProgramOutcome where
  | finished (status : Int) (output errors : Printed)
  /-- It cannot be started. -/
  | failed (errno : Errno)
  /-- It took longer than so many seconds, and was stopped after some output. -/
  | expired (seconds : Text) (output : Printed)
deriving DecidableEq

/-- A file operation that can be made to fail. -/
inductive FileCall where
  | list (path : Text)
  | openRead (path : Text)
  | openWrite (path : Text)
  | copy
  | copyMode
  | replace (target : Text)
  /-- Looks whether there is an entry at a path. -/
  | look (path : Text)
  | remove (path : Text)
deriving DecidableEq

/-- Which file operations fail: the number of operations before it and the operation decide. -/
abbrev Faults := Nat → FileCall → Option Errno

/-- The faults of a world in which nothing is made to fail. -/
def Faults.none : Faults := fun _ _ => Option.none

/-- A lack of room for a file. -/
structure Shortage where
  /-- How many bytes still find room. -/
  room : Nat
  errno : Errno
deriving DecidableEq

/-- The letters that are drawn for a name, unlike those of other attempts. -/
def drawnLetters (attempt : Nat) : Text :=
  if attempt = 0 then "XXXXXXXX" else .hex 8 attempt

/-- What actions work on. -/
structure World where
  tree : Tree
  /-- The trees before this one, the latest first. -/
  past : List Tree := []
  /-- The current directory. -/
  directory : Location := []
  limits : PathLimits := {}
  /-- How deep the values of a document may be nested. -/
  nesting : Nat := Json.nestingLimit
  /-- The encodings that are known besides the library's own. -/
  codecs : Text → Option Codec := Iso2022Jp.codec?
  listing : Listing := .byBytes
  faults : Faults := Faults.none
  /-- Where room is missing, by the number of operations before. -/
  shortages : Nat → Option Shortage := fun _ => none
  /-- The sizes of the pieces in which a file is written, by the number of operations before. -/
  pieces : Nat → List Nat := fun _ => []
  /-- The letters drawn for temporary names, by the number of operations before and the attempt. -/
  draws : Nat → Nat → Text := fun _ => drawnLetters
  /-- How many file operations have been asked for. -/
  clock : Nat := 0
  /-- How the programs end that are run from now on. -/
  programs : List ProgramOutcome := []
  /-- The programs that have been started. -/
  calls : List ProgramCall := []
  requestId : Text := []
  environment : List (Text × Text) := []
  log : List LogRecord := []
  /-- The lines that have been emitted. -/
  emitted : List Text := []
  /-- The text that has been printed. -/
  printed : Text := []

/-- The world after a change of its tree. -/
def World.change (w : World) (tree : Tree) : World :=
  { w with tree, past := w.tree :: w.past }

/-- The codec of the encoding that goes by a name. -/
def World.codec? (w : World) (encoding : Text) : Option Codec :=
  match Encoding.ofName? encoding with
  | some e => some e.toCodec
  | none => w.codecs encoding

/-- The names in a directory, as they are listed. -/
def World.namesIn (w : World) (place : Location) : List EntryName :=
  w.listing.order place (w.tree.namesIn place)

/-- An action: it changes a world and gives a value or a failure. -/
abbrev Action := EStateM Failure World

namespace Action

/-- An action that gives the value of a result or fails with its error. -/
def ofExcept {ε α : Type} (wrap : ε → Failure) : Except ε α → Action α
  | .ok a => pure a
  | .error e => throw (wrap e)

/-- Adds a record to the log. -/
def record (r : LogRecord) : Action Unit :=
  modify fun w => { w with log := w.log ++ [r] }

/-- Logs a message made of parts. -/
def log (level : Level) (parts : List Text) : Action Unit :=
  record { level, message := .concat parts }

/-- Asks whether a file operation is made to fail. -/
def fault? (call : FileCall) : Action (Option Errno) :=
  modifyGet fun w => (w.faults w.clock call, { w with clock := w.clock + 1 })

/-- Asks whether there is room for a file. -/
def shortage? : Action (Option Shortage) :=
  modifyGet fun w => (w.shortages w.clock, { w with clock := w.clock + 1 })

/-- Runs a program and gives how it ends; a program without a given end finishes at once. -/
def runProgram (command : List Text) (timeout : Option Int) : Action ProgramOutcome :=
  modifyGet fun w =>
    (w.programs.headD (.finished 0 (.bytes []) (.bytes [])),
      { w with programs := w.programs.tail
               calls := w.calls ++ [⟨command, timeout, w.requestId⟩] })

end Action

end Renewal
