import Renewal.Rule.Basic

/-! # Reports

The findings in one file: which of the commands that were detected in it stand in which table of a
rule set. A file without findings has no lines; otherwise one header comes before them.
-/

namespace Renewal

/-- The findings in one file. -/
structure Report where
  /-- How the file is shown. -/
  path : Text
  deprecated : List Text := []
  uncertain : List Text := []
  modernize : List Text := []
deriving DecidableEq

namespace Report

/-- Looks names up in the tables of a rule set; each table's names are in increasing order. -/
def ofNames (path : Text) (names : List Text) (rules : RuleSet) : Report :=
  let names := Text.sortedSet names
  { path
    deprecated := names.filter rules.deprecated.contains
    uncertain := names.filter rules.uncertain.contains
    modernize := names.filter rules.modernize.contains }

/-- Whether there is anything to report. -/
def hasFindings (r : Report) : Bool :=
  !(r.deprecated.isEmpty && r.uncertain.isEmpty && r.modernize.isEmpty)

/-- The line before the findings. -/
def header (r : Report) : Text :=
  .concat ["\n----- ", r.path]

/-- The line for a deprecated command. -/
def deprecatedLine (name : Text) : Text :=
  .concat ["use of deprecated command: '", name, "'"]

/-- The line for a command whose future is unclear. -/
def uncertainLine (name : Text) : Text :=
  .concat ["use of command with unclear future: '", name, "'"]

/-- The line for a command that should be modernized. -/
def modernizeLine (name : Text) : Text :=
  .concat ["use of command that should be modernized: '", name, "'"]

/-- The header and one line for each finding; nothing without findings. -/
def lines (r : Report) : List Text :=
  if r.hasFindings then
    r.header :: (r.deprecated.map deprecatedLine ++ r.uncertain.map uncertainLine ++
      r.modernize.map modernizeLine)
  else []

end Report

end Renewal
