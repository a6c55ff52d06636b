import Renewal.FileSystem.Operation
import Renewal.Glob
import Renewal.Text.Blank

/-! # Enumerating files

A walker gives the regular files under a root whose names match a pattern, in the order of their
paths. The native walker lists directories itself; it enters each real directory once, whichever
links lead to it. Another lets a program do it.
-/

namespace Renewal

/-- A way to enumerate files. -/
inductive Walker where
  /-- Lists directories, and enters links to directories if so told. -/
  | native (followLinks : Bool)
  /-- Runs a program. -/
  | find (command : List Text) (timeout : Option Int)
  /-- Gives the same paths for every root. -/
  | fixed (paths : List Path)

namespace Walker

/-- The path of an entry in a directory. -/
def join (directory name : Text) : Text :=
  if directory.getLast? = some Path.separator then directory ++ name
  else .concat [directory, "/", name]

/-- Whether a path leads to a directory; whatever prevents an answer means no. -/
def leadsToDirectory (w : World) (path : Text) : Bool :=
  match w.find path with
  | .ok found => found.entry == some .directory
  | .error _ => false

/-- Whether a name that is listed at a location counts as a directory; `path` is how the walk
knows it. A link counts as what it leads to. -/
def countsAsDirectory (w : World) (around : Location) (name : EntryName) (path : Text) : Bool :=
  match w.tree.get? (around ++ [name]) with
  | some .directory => true
  | some (.link _) => leadsToDirectory w path
  | _ => false

/-- Whether the entry at a path is a link. -/
def isLink (w : World) (path : Text) : Bool :=
  match w.find path false with
  | .ok ⟨_, some (.link _)⟩ => true
  | _ => false

/-- What a walk has found so far. -/
structure Progress where
  files : List Path := []
  /-- The real directories that have been entered. -/
  entered : List Location := []

/-- The files of a directory that match a pattern. -/
def filesIn (pattern directory : Text) : List Text → Action (List Path)
  | [] => pure []
  | name :: rest => do
    let file := (Path.ofText directory).child name
    let here ←
      if globMatches pattern name then FileSystem.isFile file.text else pure false
    let more ← filesIn pattern directory rest
    return if here then file :: more else more

/-- Walks a directory at most `depth` levels deep. A directory that cannot be listed ends the
walk. -/
def visit (followLinks : Bool) (pattern : Text) :
    (depth : Nat) → Progress → (directory : Text) → Action Progress
  | 0, progress, _ => pure progress
  | depth + 1, progress, directory => do
    match ← FileSystem.list directory with
    | .error errno => throw (.enumeration (.cannotList directory errno))
    | .ok entries =>
      let w ← get
      match w.find directory with
      | .error errno => throw (.enumeration (.cannotList directory errno))
      | .ok ⟨real, _⟩ =>
        if progress.entered.contains real then
          Action.log .debug ["Skipping symlink loop at ", directory]
          return progress
        else
          let (directories, others) := entries.partition fun name =>
            countsAsDirectory w real name (join directory (Utf8.decode name))
          let found ← filesIn pattern directory (others.map Utf8.decode)
          let below := directories.map fun name => join directory (Utf8.decode name)
          let below := below.filter fun path => followLinks || !isLink w path
          below.foldlM (visit followLinks pattern depth)
            { files := progress.files ++ found, entered := progress.entered ++ [real] }

/-- The files under a root, by listing directories. -/
def walkNative (followLinks : Bool) (root : Path) (pattern : Text) : Action (List Path) := do
  if !(← FileSystem.isDirectory root.text) then
    throw (.enumeration (.notDirectory root.text))
  let depth := (← get).tree.entries.length + 2
  let found ← visit followLinks pattern depth {} root.text
  let files := found.files.mergeSort Path.le
  Action.log .debug ["Found ", .ofNat files.length, " files matching ", pattern, " under ",
    root.text]
  return files

/-- The files under a root, by running a program. -/
def walkByProgram (command : List Text) (timeout : Option Int) (root : Path) (pattern : Text) :
    Action (List Path) := do
  let arguments : List Text := ["-L", root.text, "-type", "f", "-name", pattern]
  let command := command ++ arguments
  let cannotRun (e : LaunchError) : Failure := .enumeration (.cannotRun command e)
  match ← Action.runProgram command timeout with
  | .failed errno => throw (cannotRun (.system (.system errno command.head? none)))
  | .expired seconds _ => throw (cannotRun (.expired command seconds))
  | .finished status output errors =>
    let output ← Action.ofExcept .decode output.read
    let errors ← Action.ofExcept .decode errors.read
    if status ≠ 0 then throw (.enumeration (.exited command status errors.strip))
    let lines := output.lines.map Text.dropLineEnd
    return ((lines.filter fun line => !line.isEmpty).map Path.ofText).mergeSort Path.le

/-- The files under a root whose names match a pattern. -/
def walk (walker : Walker) (root : Path) (pattern : Text) : Action (List Path) :=
  match walker with
  | .native followLinks => walkNative followLinks root pattern
  | .find command timeout => walkByProgram command timeout root pattern
  | .fixed paths => pure paths

/-- The walker that a setting names. -/
def named (name findCommand : Text) (followLinks : Bool) : Except Failure Walker :=
  if name = ("native" : Text) then .ok (.native followLinks)
  else if name = ("find" : Text) then
    match ShellWords.split findCommand with
    | .ok command => .ok (.find command none)
    | .error e => .error (.words e)
  else .error (.unknownWalker name)

end Walker

end Renewal
