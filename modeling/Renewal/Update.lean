import Renewal.Rule.Basic

/-! # Updating a text

The rules of a rule set are applied to a text one after the other, each to what the ones before it
have left. The outcome tells which rules applied and how often. How one rule is applied is up to an
engine; the library's own is `Rule.apply`.
-/

namespace Renewal

/-- A way to apply rules: the text after a rule has been applied, and how often it was, or why the
rule cannot be read. -/
abbrev Engine := Rule → Text → Except PatternError (Text × Nat)

/-- A text to which rules have been applied. -/
structure Updated where
  text : Text
  /-- The rules that applied, each with how often it did, in order. -/
  applied : List (Rule × Nat) := []

/-- How often rules applied. -/
def Updated.changes (u : Updated) : Nat :=
  u.applied.foldl (fun n entry => n + entry.2) 0

/-- An update that a rule has stopped which cannot be read. -/
structure UpdateError where
  cause : PatternError
  /-- The rules before it that applied. -/
  applied : List (Rule × Nat)

namespace Updated

/-- One more rule. -/
def step (engine : Engine) (u : Updated) (r : Rule) : Except UpdateError Updated :=
  match engine r u.text with
  | .error cause => .error ⟨cause, u.applied⟩
  | .ok (text, count) =>
    .ok { text, applied := if count = 0 then u.applied else u.applied ++ [(r, count)] }

end Updated

/-- Applies the rules of a list in order. -/
def update (rules : List Rule) (t : Text) (engine : Engine := Rule.apply) :
    Except UpdateError Updated :=
  rules.foldlM (Updated.step engine) { text := t }

end Renewal
