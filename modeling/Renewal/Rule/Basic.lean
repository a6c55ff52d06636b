import Renewal.Pattern.Source
import Renewal.Pattern.Template

/-! # Rules

A rule replaces what a pattern matches by what a template gives. A rule set has the tables that a
report looks names up in, and the rules in the order in which they are applied.
-/

namespace Renewal

/-- A textual substitution. -/
structure Rule where
  /-- What is replaced, as written. -/
  pattern : Text
  /-- What is put in its place, as written. -/
  replacement : Text
  /-- Whether the match has to end at the end of a word. -/
  wholeWord : Bool := true
deriving DecidableEq

/-- A substitution that is left to a person to decide. -/
structure Exclusion where
  command : Text
  replacement : Option Text
  reason : Text
deriving DecidableEq

/-- The tables for reports and updates. -/
structure RuleSet where
  /-- Names of commands that are deprecated. -/
  deprecated : List Text := []
  /-- Names of commands whose future is unclear. -/
  uncertain : List Text := []
  /-- Names of commands that should be modernized. -/
  modernize : List Text := []
  /-- The substitutions, in the order in which they are applied. -/
  rules : List Rule := []
  /-- The substitutions that are never applied. -/
  excluded : List Exclusion := []

/-- A rule that has been read. -/
structure Substitution where
  pattern : Pattern
  template : Template

/-- A text after a substitution, and how often it was applied. -/
def Substitution.apply (s : Substitution) (t : Text) : Text × Nat :=
  s.pattern.replaceAll s.template.expand t

namespace Rule

/-- The whole pattern of a rule as written. -/
def source (r : Rule) : Text :=
  if r.wholeWord then r.pattern ++ ("\\b" : Text) else r.pattern

/-- Reads the pattern of a rule, then its template. -/
def read (r : Rule) : Except PatternError Substitution := do
  let (pattern, groups) ← Pattern.ofText r.source
  let template ← Template.ofText groups r.replacement
  return ⟨pattern, template⟩

/-- A text after a rule has been applied, and how often it was. -/
def apply (r : Rule) (t : Text) : Except PatternError (Text × Nat) :=
  r.read.map (·.apply t)

end Rule

end Renewal
