import Renewal.Text.CodePoint

/-! # Texts of the command line -/

namespace Renewal.CommandLine

/-- The name of the program. -/
def programName : Text := "ns-modernizer"

/-- The version of the program. -/
def version : Text := "1.0.0"

/-- The line that tells the version. -/
def versionText : Text :=
  .concat [programName, ", version ", version, "\n"]

/-- The line that shows how the program is used. -/
def usageLine : Text :=
  .concat ["Usage: ", programName, " [OPTIONS]\n"]

/-- The lines that stand before a usage error. -/
def usageHint : Text :=
  .concat [usageLine, "Try '", programName, " --help' for help.\n\n"]

/-- The lines of the help text after the usage line. -/
def helpLines : List String := [
  "",
  "  Report deprecated NaviServer API calls in Tcl scripts and optionally rewrite",
  "  them.",
  "",
  "  Review the rewritten files: this is a helper, not a definitive migration.",
  "",
  "  EXAMPLES:",
  "    ns-modernizer -cd /usr/local/oacs-head/openacs-4/packages/",
  "    ns-modernizer -change 1          # perform updates",
  "    ns-modernizer -diff 1            # list the differences",
  "    ns-modernizer -reset 1 -change 0 # undo the changes of a run",
  "    ns-modernizer -reset -change     # reset, then run again",
  "",
  "Options:",
  "  --version        Show the version and exit.",
  "  -cd TEXT         Directory to change into before anything else runs  [default:",
  "                   .]",
  "  -path TEXT       Root of the tree to scan, relative to -cd  [default: .]",
  "  -name TEXT       Filename glob of scripts to scan  [default: *.tcl]",
  "  -reset BOOLEAN   Restore every *-original backup before scanning  [default:",
  "                   False]",
  "  -diff BOOLEAN    Show what the last rewrite changed, then exit  [default:",
  "                   False]",
  "  -change BOOLEAN  Rewrite deprecated calls (originals kept as *-original)",
  "                   [default: False]",
  "  -h, --help       Show this message and exit."]

/-- The help text. -/
def helpText : Text :=
  usageLine ++ Text.concat (helpLines.map fun line => Text.ofString line ++ [('\n' : CodePoint)])

end Renewal.CommandLine
