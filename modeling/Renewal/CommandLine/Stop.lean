import Renewal.World

/-! # How a command stops

A command that stops early says so with a message, a status, or not at all. A failure that the
command has not foreseen is logged and becomes a message with the identifier of the request.
-/

namespace Renewal.CommandLine

/-- How a command stops early. -/
inductive Stop where
  /-- With a message. -/
  | told (t : Text)
  /-- With a message about its usage. -/
  | usage (t : Text)
  /-- With a status. -/
  | status (code : Int)
  /-- At the user's wish. -/
  | aborted
  /-- With a failure of a kind; foreseen failures are logged without their kind. -/
  | failed (kind message : Text) (foreseen : Bool)
deriving DecidableEq

/-- How a command with a failure stops. -/
def Stop.ofFailure (f : Failure) : Stop :=
  .failed f.kind f.message f.isForeseen

/-- What is logged about a command that stops. -/
def Stop.record? (command : Text) : Stop → Option LogRecord
  | .failed kind message foreseen =>
    some { level := .error
           message := .concat ["Command '", command, "' failed: ", message]
           failure := if foreseen then none else some kind }
  | _ => none

/-- What the user is told about a failure. -/
def Stop.explain (requestId : Text) : Stop → Stop
  | .failed kind message _ =>
    .told (.concat [kind, ": ", message, " (request id ", requestId, ")"])
  | other => other

/-- The status that a stop ends the program with, if it has one. -/
def Stop.exitStatus? : Stop → Option Int
  | .told _ | .failed _ _ _ => some 1
  | .usage _ => some 2
  | .status code => some code
  | .aborted => none

/-- The message of a stop. -/
def Stop.text? : Stop → Option Text
  | .told t | .usage t => some t
  | _ => none

end Renewal.CommandLine
