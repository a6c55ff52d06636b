import Renewal.Backup.Save
import Renewal.Backup.Undo
import Renewal.Detect
import Renewal.Report
import Renewal.Update

/-! # Runs

A run puts saved copies back if that is wanted, then either shows what saved copies differ in, or
reports on every file under a root and, if wanted, updates it.
-/

namespace Renewal

/-- What a run should do. -/
structure RunOptions where
  /-- The root of the tree. -/
  path : Text := "."
  /-- The pattern for names of files. -/
  name : Text := "*.tcl"
  /-- Whether saved copies are put back first. -/
  reset : Bool := false
  /-- Whether differences are shown instead of reports. -/
  diff : Bool := false
  /-- Whether files are updated. -/
  change : Bool := false
  suffix : Text := Backup.defaultSuffix
  encoding : Text := "utf-8"

/-- The means of a run. -/
structure Tools where
  rules : RuleSet
  engine : Engine := Rule.apply
  walker : Walker
  differ : Differ
  sink : Sink

/-- What a run has done. -/
structure RunSummary where
  totalChanges : Nat := 0
  filesChanged : Nat := 0
  filesScanned : Nat := 0
  filesReported : Nat := 0
  /-- How many files could not be read. -/
  filesSkipped : Nat := 0
  restored : List Path := []
  diffs : List Backup.DiffOutcome := []
  stoppedAfterDiff : Bool := false

/-- The line that sums a run up. -/
def RunSummary.line (s : RunSummary) : Text :=
  .concat [.ofNat s.totalChanges, " changes in ", .ofNat s.filesChanged, " files"]

/-- What was done with a file. -/
structure FileResult where
  path : Path
  report : Report
  changes : Nat := 0
  backup : Option Path := none

/-- One more file in a summary; nothing stands for a file that could not be read. -/
def RunSummary.add (s : RunSummary) : Option FileResult → RunSummary
  | none => { s with filesSkipped := s.filesSkipped + 1 }
  | some r =>
    { s with filesScanned := s.filesScanned + 1
             filesReported := s.filesReported + if r.report.hasFindings then 1 else 0
             totalChanges := s.totalChanges + r.changes
             filesChanged := s.filesChanged + if r.changes = 0 then 0 else 1 }

namespace Run

/-- Reads a file; nothing if it cannot be opened. -/
def readFile? (path : Path) (encoding : Text) : Action (Option Text) :=
  tryCatch
    (do return some (← FileSystem.readText path.text encoding))
    fun
      | .file e => do
        Action.log .warning ["Skipping unreadable file ", path.text, ": ", e.message]
        return none
      | other => throw other

/-- Logs what a heuristic has detected in a file, if anything. -/
def logDetected (path : Path) : Heuristic × List Text → Action Unit
  | (_, []) => pure ()
  | (h, names) =>
    Action.log .debug [path.text, ": ", .ofString h.name, " matches ", Text.quotedList names]

/-- Logs how often a rule applied. -/
def logApplied : Rule × Nat → Action Unit
  | (rule, count) =>
    Action.log .debug ["Rule ", rule.pattern, " matched ", .ofNat count, " times"]

/-- Logs what a rule did to a file. -/
def logChange (path : Path) : Rule × Nat → Action Unit
  | (rule, count) =>
    Action.log .debug [path.text, ": ", rule.pattern, " -> ", rule.replacement, " x", .ofNat count]

/-- Applies rules to a text. -/
def updateText (engine : Engine) (rules : List Rule) (t : Text) : Action Updated := do
  match update rules t engine with
  | .ok u =>
    u.applied.forM logApplied
    return u
  | .error e =>
    e.applied.forM logApplied
    throw (.pattern e.cause)

/-- Updates a file with a given text; gives how often rules applied, and the saved copy. -/
def updateFile (tools : Tools) (options : RunOptions) (path : Path) (t : Text) :
    Action (Nat × Option Path) := do
  let u ← updateText tools.engine tools.rules.rules t
  if u.changes = 0 then return (0, none)
  u.applied.forM (logChange path)
  tools.sink.emit (.concat ["... updating ", path.text, " (", .ofNat u.changes, " changes)"])
  let backup ← Backup.save path u.text options.suffix options.encoding
  return (u.changes, some backup)

/-- Reports on a file and, if wanted, updates it; nothing if it cannot be read. -/
def processFile (tools : Tools) (options : RunOptions) (path : Path) :
    Action (Option FileResult) := do
  match ← readFile? path options.encoding with
  | none => return none
  | some t =>
    let found := Detected.ofText t
    found.forM (logDetected path)
    let shown := Path.absolute (Location.text (← get).directory) path.text
    let report := Report.ofNames shown found.commands tools.rules
    report.lines.forM tools.sink.emit
    if options.change then
      let (changes, backup) ← updateFile tools options path t
      return some { path, report, changes, backup }
    else return some { path, report }

/-- Processes files one after the other. Saved copies are left alone. -/
def processFiles (tools : Tools) (options : RunOptions) :
    RunSummary → List Path → Action RunSummary
  | summary, [] => pure summary
  | summary, path :: rest => do
    if path.name.endsWith options.suffix then processFiles tools options summary rest
    else
      let result ← processFile tools options path
      processFiles tools options (summary.add result) rest

/-- Reports on all files under a root. -/
def scan (tools : Tools) (options : RunOptions) (summary : RunSummary) : Action RunSummary := do
  let files ← tools.walker.walk (.ofText options.path) options.name
  let summary ← processFiles tools options summary files
  if options.change then tools.sink.emit summary.line
  Action.log .debug ["Scanned ", .ofNat summary.filesScanned, " files, ",
    .ofNat summary.filesReported, " with findings, ", .ofNat summary.filesSkipped, " skipped"]
  return summary

/-- Puts saved copies back, if wanted. -/
def restoreFirst (tools : Tools) (options : RunOptions) : Action (List Path) := do
  if options.reset then
    let restored ← Backup.reset (.ofText options.path) tools.walker options.suffix
    Action.log .info ["Restored ", .ofNat restored.length, " files"]
    return restored
  else return []

end Run

/-- A run. -/
def run (tools : Tools) (options : RunOptions) : Action RunSummary := do
  let restored ← Run.restoreFirst tools options
  if options.diff then
    let diffs ←
      Backup.diff (.ofText options.path) tools.walker tools.differ options.suffix tools.sink
    return { restored, diffs, stoppedAfterDiff := true }
  else Run.scan tools options { restored }

end Renewal
