import Renewal.Json.Writer
import Renewal.Log.Level
import Renewal.Number.Binary
import Renewal.Path

/-! # Log records as lines of JSON

A record is written as one JSON object on a line of its own: its level as a number, the time in
milliseconds, the message, the process and the request, then what else is known, and a failure.
Paths are written by their texts.
-/

namespace Renewal.Log

/-- A failure that a record tells. -/
structure FailureNote where
  /-- The kind of the failure. -/
  kind : Option Text
  message : Option Text

/-- A value that a record tells. -/
inductive Value where
  | json (j : Json)
  | path (p : Path)

/-- What a value is written as. -/
def Value.written : Value → Json
  | .json j => j
  | .path p => .string p.text

/-- What a record tells. -/
structure Event where
  /-- The name of its level. -/
  level : Text
  /-- The time in milliseconds. -/
  milliseconds : Int
  message : Text
  /-- The number of the process. -/
  process : Json
  /-- What else is known, in order. -/
  extra : List (Text × Value) := []
  failure : Option FailureNote := none

/-- The number of a level in a line; levels without a number count as information. -/
def levelNumber (name : Text) : Int :=
  match Level.ofName? name with
  | some .trace => 10
  | some .debug => 20
  | some .warning => 40
  | some .error => 50
  | some .critical => 60
  | _ => 30

/-- Why a time has no milliseconds. -/
inductive TimeError where
  | infinite
  | notANumber
deriving DecidableEq

/-- What is said of a time without milliseconds. -/
def TimeError.message : TimeError → Text
  | .infinite => "cannot convert float infinity to integer"
  | .notANumber => "cannot convert float NaN to integer"

/-- Whole milliseconds of a time in seconds. -/
def milliseconds (seconds : Float) : Except TimeError Int :=
  let x := seconds * 1000.0
  if x.isNaN then .error .notANumber
  else if x.isInf then .error .infinite
  else .ok (Number.Binary.ofFloat x).truncate

/-- The field for the request. -/
def requestField : Text := "request_id"

/-- What a failure is written as. -/
def FailureNote.value (f : FailureNote) : Json :=
  .object [("type", .string (f.kind.getD "Error")), ("message", .string (f.message.getD []))]

/-- What a record tells, by name. What else is known takes the place of a field of its name; the
request of the record counts before the given one. -/
def Event.record (e : Event) (requestId : Text) : List (Text × Value) :=
  let request := (e.extra.lookup requestField).getD (.json (.string requestId))
  let base : List (Text × Value) := [("level", .json (.integer (levelNumber e.level))),
    ("time", .json (.integer e.milliseconds)), ("msg", .json (.string e.message)),
    ("pid", .json e.process), (requestField, request)]
  let others := e.extra.filter fun (name, _) => name != requestField
  let told := others.foldl (fun told (name, value) => Fields.set told name value) base
  match e.failure with
  | none => told
  | some f => Fields.set told "err" (.json f.value)

/-- The fields of a record's line. -/
def Event.fields (e : Event) (requestId : Text) : Fields :=
  (e.record requestId).map fun (name, value) => (name, value.written)

/-- The line of a record. -/
def Event.line (e : Event) (requestId : Text) : Text :=
  (Json.object (e.fields requestId)).write ++ [('\n' : CodePoint)]

end Renewal.Log
