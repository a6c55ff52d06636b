import Renewal.CommandLine.Help
import Renewal.CommandLine.Options
import Renewal.CommandLine.Stop
import Renewal.Rule.Server
import Renewal.Run
import Renewal.Settings.Basic

/-! # The program

The program reads its command line, goes to the directory it is to work in, reads its settings, and
makes a run whose lines are printed.
-/

namespace Renewal.CommandLine

/-- The statuses that the program ends with. -/
inductive ExitStatus where
  | success
  /-- A run was given up. -/
  | fatal
  /-- The command line is wrong. -/
  | misuse
deriving DecidableEq

/-- The number of a status. -/
def ExitStatus.code : ExitStatus → Nat
  | .success => 0
  | .fatal => 1
  | .misuse => 2

/-- What the program leaves. -/
structure Outcome where
  status : ExitStatus
  output : Text := []
  errors : Text := []

/-- Goes to a directory. -/
def changeDirectory (path : Text) : Action Unit := do
  match ← FileSystem.locate path with
  | (location, .directory) => modify fun w => { w with directory := location }
  | _ => throw (FileSystem.failed path .notDirectory)

/-- The tools that settings ask for. -/
def toolsFor (settings : Settings) : Except Failure Tools := do
  let walker ← Walker.named (settings.text .walker) (settings.text .findCommand)
    (settings.isSet .followLinks)
  let differ ← Differ.named (settings.text .differ) (settings.text .diffCommand)
    (settings.text .encoding)
  return { rules := RuleSet.server, walker, differ, sink := .print }

/-- The options of a run from the command line and the settings. -/
def optionsFor (a : Arguments) (settings : Settings) : RunOptions :=
  let name := a.name.getD []
  { path := a.path
    name := if name.isEmpty then settings.text .name else name
    reset := a.reset
    diff := a.diff
    change := a.change
    suffix := settings.text .suffix
    encoding := settings.text .encoding }

/-- Does what a command line asks for. -/
def perform (a : Arguments) : Action Unit := do
  changeDirectory a.directory
  Console.print (.concat ["working directory is ", Location.text (← get).directory])
  let settings ← Settings.load "."
  let tools ← Action.ofExcept id (toolsFor settings)
  discard (run tools (optionsFor a settings))

/-- The name of the command in the log. -/
def commandName : Text := "main"

/-- What is printed about an error. -/
def errorText (message : Text) : Text :=
  .concat ["Error: ", message, "\n"]

/-- Runs the program with the words of a command line. -/
def program (words : List Text) (w : World) : Outcome × World :=
  match parse words with
  | .error e =>
    let hint : Text := if e.showsUsage then usageHint else ""
    ({ status := .misuse, errors := hint ++ errorText e.message }, w)
  | .ok .version => ({ status := .success, output := versionText }, w)
  | .ok .help => ({ status := .success, output := helpText }, w)
  | .ok (.run a) =>
    match perform a { w with printed := [] } with
    | .ok _ w => ({ status := .success, output := w.printed }, w)
    | .error f w =>
      let stop := Stop.ofFailure f
      let log := w.log ++ (stop.record? commandName).toList
      let message := ((stop.explain w.requestId).text?).getD []
      ({ status := .fatal, output := w.printed, errors := errorText message }, { w with log })

end Renewal.CommandLine
