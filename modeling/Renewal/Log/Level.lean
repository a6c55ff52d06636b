import Renewal.Text.CodePoint

/-! # Levels of log records -/

namespace Renewal

/-- How important a log record is. -/
inductive Level where
  | trace
  | debug
  | info
  | success
  | warning
  | error
  | critical
deriving DecidableEq, Repr

namespace Level

/-- The levels in increasing order. -/
def all : List Level := [.trace, .debug, .info, .success, .warning, .error, .critical]

/-- The number by which levels are ordered. -/
def severity : Level → Nat
  | .trace => 5
  | .debug => 10
  | .info => 20
  | .success => 25
  | .warning => 30
  | .error => 40
  | .critical => 50

/-- The name of a level. -/
def name : Level → Text
  | .trace => "TRACE"
  | .debug => "DEBUG"
  | .info => "INFO"
  | .success => "SUCCESS"
  | .warning => "WARNING"
  | .error => "ERROR"
  | .critical => "CRITICAL"

/-- The level of a name. -/
def ofName? (name : Text) : Option Level :=
  all.find? fun level => level.name == name

end Level

end Renewal
