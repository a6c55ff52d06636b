import Renewal.Json.Basic
import Renewal.Message.Error
import Renewal.Number.Shortest
import Renewal.Text.Digit

/-! # Values in messages

What a field of a message can stand for: a value, or the kind of one. A value is shown as a text;
inside lists and objects, texts stand between quotes. Values have parts, which are asked for by
name or by number.
-/

namespace Renewal.Message

/-- What a field of a message can stand for. -/
inductive Value where
  | json (j : Json)
  /-- The kind of a value. -/
  | kind (name : Text)

/-- The name of the kind of a value. -/
def kindOf : Json → Text
  | .null => "NoneType"
  | .bool _ => "bool"
  | .integer _ => "int"
  | .real _ => "float"
  | .string _ => "str"
  | .list _ => "list"
  | .object _ => "dict"

/-- The name of the kind of what a field stands for. -/
def Value.kindName : Value → Text
  | .json j => kindOf j
  | .kind _ => "type"

mutual
/-- A value with its texts between quotes. -/
def showQuoted : Json → Text
  | .null => "None"
  | .bool b => if b then "True" else "False"
  | .integer n => .ofInt n
  | .real x =>
    if x.isNaN then "nan" else if x.isInf then (if x < 0 then "-inf" else "inf")
    else Number.shortest x
  | .string t => t.quoted
  | .list items => .concat ["[", .joinWith ", " (showItems items), "]"]
  | .object fields => .concat ["\x7b", .joinWith ", " (showFields fields), "\x7d"]

/-- Items with their texts between quotes. -/
def showItems : List Json → List Text
  | [] => []
  | j :: rest => showQuoted j :: showItems rest

/-- Fields with their texts between quotes. -/
def showFields : List (Text × Json) → List Text
  | [] => []
  | (name, j) :: rest => .concat [name.quoted, ": ", showQuoted j] :: showFields rest
end

/-- What a field stands for, with texts between quotes. -/
def Value.quoted : Value → Text
  | .json j => showQuoted j
  | .kind name => .concat ["<class '", name, "'>"]

/-- What a field stands for, as it is shown. -/
def Value.shown : Value → Text
  | .json (.string t) => t
  | v => v.quoted

/-- A text in ASCII, with all other code points by number. -/
def inAscii (t : Text) : Text :=
  t.flatMap fun c => if c.code < 128 then [c] else Text.escapeCode c

/-- The parts of a number that are asked for by name. -/
def numberPart? (j : Json) (name : Text) : Option Json :=
  let whole (n : Int) : Option Json :=
    if name = ("real" : Text) ∨ name = ("numerator" : Text) then some (.integer n)
    else if name = ("imag" : Text) then some (.integer 0)
    else if name = ("denominator" : Text) then some (.integer 1)
    else none
  match j with
  | .integer n => whole n
  | .bool b => whole (if b then 1 else 0)
  | .real x =>
    if name = ("real" : Text) then some (.real x)
    else if name = ("imag" : Text) then some (.real 0.0)
    else none
  | _ => none

/-- The part of a value that has a name. -/
def Value.part (v : Value) (name : Text) : Except ValueFault Value :=
  if name = ("__class__" : Text) then .ok (.kind v.kindName)
  else
    match v with
    | .json j =>
      match numberPart? j name with
      | some part => .ok (.json part)
      | none => .error (.noPart (kindOf j) name)
    | .kind k =>
      if name = ("__name__" : Text) ∨ name = ("__qualname__" : Text) then .ok (.json (.string k))
      else if name = ("__module__" : Text) then .ok (.json (.string "builtins"))
      else .error (.noPartOfKind k name)

/-- The item of a value that has a number. -/
def Value.itemNumbered (v : Value) (n : Int) : Except ValueFault Value :=
  match v with
  | .json (.list items) =>
    match if 0 ≤ n then items[n.toNat]? else none with
    | some j => .ok (.json j)
    | none => .error .outsideList
  | .json (.string t) =>
    match if 0 ≤ n then t[n.toNat]? else none with
    | some c => .ok (.json (.string [c]))
    | none => .error .outsideText
  | .json (.object _) => .error (.missingNumber n)
  | .json j => .error (.noItems (kindOf j))
  | .kind name => .error (.noItemsOfKind name)

/-- The item of a value that has a name. -/
def Value.itemNamed (v : Value) (name : Text) : Except ValueFault Value :=
  match v with
  | .json (.list _) => .error .nameInList
  | .json (.string _) => .error .nameInText
  | .json (.object fields) =>
    match Fields.get? fields name with
    | some j => .ok (.json j)
    | none => .error (.missing name)
  | .json j => .error (.noItems (kindOf j))
  | .kind k => .error (.noItemsOfKind k)

end Renewal.Message
