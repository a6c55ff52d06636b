import Renewal.Pattern.Search

/-! # Detecting commands

A script language in which any word may be a command has no grammar to go by, so commands are
detected by how they look: alone in brackets, before an argument, or before a lower-case
subcommand. The three heuristics search the whole text each on its own. A command whose name is
put together while the script runs is not seen.
-/

namespace Renewal

/-- A way to detect commands. -/
inductive Heuristic where
  /-- A command alone in brackets. -/
  | bracketed
  /-- A command at the start of a line or after a bracket, and the start of an argument. -/
  | argument
  /-- A command at the start of a line or after a bracket, and a subcommand. -/
  | subcommand
deriving DecidableEq

namespace Heuristic

/-- The heuristics. -/
def all : List Heuristic := [.bracketed, .argument, .subcommand]

/-- The name of a heuristic. -/
def name : Heuristic → String
  | .bracketed => "bracketed"
  | .argument => "argument"
  | .subcommand => "subcommand"

/-- A lower-case letter or an underscore. -/
def nameLetter : Pattern :=
  .oneOf [.range 'a' 'z', .one '_']

/-- The name of a command. -/
def commandName : Pattern :=
  .sequence (.exactly "ns") nameLetter.atLeastOnce

/-- The start of the text, a newline or a bracket, and white space. -/
def lead : Pattern :=
  .sequence (.either (.edge .textStart) (.oneOf [.one '\n', .one '['])) .blanks

/-- What a heuristic looks for; the first group is the command. -/
def pattern : Heuristic → Pattern
  | .bracketed => .all [.one '[', .blanks, .group 1 commandName, .blanks, .one ']']
  | .argument =>
    .all [lead, .group 1 commandName,
      .ahead (.sequence .blanks (.oneOf [.one '-', .one '$', .one '[', .one '"']))]
  | .subcommand =>
    .all [lead,
      .group 1 (.all [commandName, (Pattern.one ' ').atLeastOnce, nameLetter.atLeastOnce]),
      .edge .word]

/-- The commands that a heuristic detects, in increasing order, with one space before a
subcommand. -/
def detect (h : Heuristic) (t : Text) : List Text :=
  Text.sortedSet ((h.pattern.findAll t).map fun m => ((m.group? 1).getD []).normalizeBlanks)

end Heuristic

/-- The commands that each heuristic has detected. -/
abbrev Detected := List (Heuristic × List Text)

namespace Detected

/-- The commands that each heuristic detects in a text. -/
def ofText (t : Text) : Detected :=
  Heuristic.all.map fun h => (h, h.detect t)

/-- The commands that some heuristic has detected, in increasing order. -/
def commands (found : Detected) : List Text :=
  Text.sortedSet (found.flatMap Prod.snd)

end Detected

/-- The commands that some heuristic detects, in increasing order. -/
def detectCommands (t : Text) : List Text :=
  (Detected.ofText t).commands

end Renewal
