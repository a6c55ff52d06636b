import Renewal.Message.Field
import Renewal.Message.Written

/-! # Filling the fields of a message

The fields of a message are filled from left to right with named values. The layout of a field may
have fields itself, but no deeper. A message without values is left as it is.
-/

namespace Renewal.Message

/-- The value that a name asks for. Numbers and the empty name ask for values without a name, of
which there are none. -/
def valueNamed (values : Fields) (name : Text) : Except FillError Value := do
  match ← (number? name).mapError .writing with
  | some n => throw (.value (.missingPosition n))
  | none =>
    if name.isEmpty then throw (.value (.missingPosition 0))
    else
      match Fields.get? values name with
      | some j => return .json j
      | none => throw (.value (.missing name))

/-- The part of a value that a step leads to. -/
def takeStep (v : Value) : Step → Except FillError Value
  | .part name =>
    if name.isEmpty then .error (.writing .emptyPart) else (v.part name).mapError .value
  | .item key => do
    let n ← (number? key).mapError .writing
    if key.isEmpty then throw (.writing .emptyPart)
    match n with
    | some n => (v.itemNumbered n).mapError .value
    | none => (v.itemNamed key).mapError .value
  | .fault e => .error (.writing e)

/-- What a field's name asks for. -/
def valueOf (values : Fields) (name : Text) : Except FillError Value := do
  let (first, steps) := pathOf name
  steps.foldlM takeStep (← valueNamed values first)

/-- A value as a conversion shows it. -/
def convert (v : Value) (conversion : CodePoint) : Except FillError Value :=
  if conversion = ('r' : CodePoint) then .ok (.json (.string v.quoted))
  else if conversion = ('s' : CodePoint) then .ok (.json (.string v.shown))
  else if conversion = ('a' : CodePoint) then .ok (.json (.string (inAscii v.quoted)))
  else .error (.value (.unknownConversion conversion))

/-- What a piece of a message stands for; `expand` fills the fields of layouts. -/
def fillPiece (values : Fields) (expand : Text → Except FillError Text) :
    Piece → Except FillError Text
  | .literal c => .ok [c]
  | .fault e => .error (.writing e)
  | .field f => do
    let v ← valueOf values f.name
    let v ← match f.conversion with
      | some c => convert v c
      | none => pure v
    let layout ← if f.nested then expand f.layout else pure f.layout
    (v.write layout).mapError .layout

/-- A message with its fields filled, in which layouts may have fields `depth` times over. -/
def fillWithin (values : Fields) : (depth : Nat) → Text → Except FillError Text
  | 0, _ => .error (.writing .tooDeep)
  | depth + 1, t => do
    let parts ← (pieces t).mapM (fillPiece values (fillWithin values depth))
    return parts.flatten

/-- A message with its fields filled. Without values it is left as it is. -/
def fill (values : Fields) (t : Text) : Except FillError Text :=
  if values.isEmpty then .ok t else fillWithin values 2 t

end Renewal.Message
