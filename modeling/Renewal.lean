import Renewal.Backup.Name
import Renewal.Backup.Save
import Renewal.Backup.Undo
import Renewal.CommandLine.Help
import Renewal.CommandLine.Options
import Renewal.CommandLine.Program
import Renewal.CommandLine.Stop
import Renewal.Console
import Renewal.Detect
import Renewal.Diff.Matching
import Renewal.Diff.Unified
import Renewal.Differ
import Renewal.Failure
import Renewal.FileSystem.Errno
import Renewal.FileSystem.Operation
import Renewal.FileSystem.Resolve
import Renewal.FileSystem.Tree
import Renewal.Glob
import Renewal.Json.Basic
import Renewal.Json.Reader
import Renewal.Json.Writer
import Renewal.Log.Level
import Renewal.Log.Line
import Renewal.Log.Setup
import Renewal.Message.Error
import Renewal.Message.Field
import Renewal.Message.Fill
import Renewal.Message.Layout
import Renewal.Message.Value
import Renewal.Message.Written
import Renewal.Number.Binary
import Renewal.Number.Rounded
import Renewal.Number.Shortest
import Renewal.Number.Written
import Renewal.Path
import Renewal.Pattern.Basic
import Renewal.Pattern.ClassReader
import Renewal.Pattern.Error
import Renewal.Pattern.Escape
import Renewal.Pattern.Search
import Renewal.Pattern.Source
import Renewal.Pattern.Template
import Renewal.Pattern.Token
import Renewal.Proofs.AtomicSave
import Renewal.Proofs.BackupPath
import Renewal.Proofs.CommandReading
import Renewal.Proofs.CrashSafety
import Renewal.Proofs.Detection
import Renewal.Proofs.Footprint
import Renewal.Proofs.Glob
import Renewal.Proofs.HunkDivision
import Renewal.Proofs.KeptCopies
import Renewal.Proofs.MatchPlaces
import Renewal.Proofs.MatchedRuns
import Renewal.Proofs.Outcome
import Renewal.Proofs.PathText
import Renewal.Proofs.PatternSearch
import Renewal.Proofs.PatternWays
import Renewal.Proofs.PermissionCall
import Renewal.Proofs.Phrase
import Renewal.Proofs.PlainPath
import Renewal.Proofs.Replacement
import Renewal.Proofs.ReportedCommands
import Renewal.Proofs.Reset
import Renewal.Proofs.Resolution
import Renewal.Proofs.Route
import Renewal.Proofs.SavedState
import Renewal.Proofs.ServerRules
import Renewal.Proofs.RuleOrder
import Renewal.Proofs.SetAside
import Renewal.Proofs.Settling
import Renewal.Proofs.Sweep
import Renewal.Proofs.TemporaryFile
import Renewal.Proofs.TrackedCommands
import Renewal.Proofs.TreeLookup
import Renewal.Proofs.UndoHistory
import Renewal.Proofs.UnifiedDiff
import Renewal.Proofs.UpdatePass
import Renewal.Proofs.Utf8
import Renewal.Proofs.Walk
import Renewal.Report
import Renewal.Rule.Basic
import Renewal.Rule.Server
import Renewal.Run
import Renewal.Settings.Basic
import Renewal.Settings.Value
import Renewal.ShellWords
import Renewal.Text.Blank
import Renewal.Text.Cells
import Renewal.Text.CodePoint
import Renewal.Text.Digit
import Renewal.Text.Encoding
import Renewal.Text.Integer
import Renewal.Text.Name
import Renewal.Text.Printable
import Renewal.Text.Quoted
import Renewal.Text.Ranges
import Renewal.Text.Upper
import Renewal.Text.Word
import Renewal.Update
import Renewal.Walker
import Renewal.World
import Renewal.Proofs.CopyNames
import Renewal.Proofs.CopySearch
import Renewal.Proofs.FoundCopies
import Renewal.Proofs.SaveProgress
import Renewal.Proofs.TwinRuns
import Renewal.Proofs.SteadyRuns
import Renewal.Proofs.VisibleUpdates
import Renewal.Proofs.Tour
import Renewal.Proofs.UnlistedTree
import Renewal.Proofs.AccessPath
import Renewal.Proofs.LinkedWalk
import Renewal.Proofs.PatchReading
import Renewal.Proofs.EmittedLines
import Renewal.Proofs.RunTally
import Renewal.Proofs.WalkersAgree
import Renewal.Proofs.SeparateLines
import Renewal.Proofs.KeptBytes
import Renewal.Proofs.StackedCopies
import Renewal.Proofs.DiffOutcomes
import Renewal.Proofs.ReportLines
import Renewal.Proofs.BlankChanges
import Renewal.Proofs.JsonStrings
import Renewal.Proofs.JsonNumerals
import Renewal.Proofs.JsonDocuments
import Renewal.Proofs.JsonReading
import Renewal.Proofs.SettingsMerge
import Renewal.Proofs.SettingsFile
import Renewal.Proofs.PrintedText
import Renewal.Proofs.Association
import Renewal.Proofs.JsonWriting
import Renewal.Proofs.LogLines
