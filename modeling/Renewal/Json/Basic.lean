import Renewal.Text.CodePoint

/-! # JSON values

The values of JSON texts. Integers are told from other numbers, and an object keeps its fields in
the order in which they were first given.
-/

namespace Renewal

/-- A JSON value. -/
inductive Json where
  | null
  | bool (b : Bool)
  | integer (n : Int)
  /-- A number with a fraction or an exponent. -/
  | real (x : Float)
  | string (t : Text)
  | list (items : List Json)
  | object (fields : List (Text × Json))
deriving Inhabited

/-- The fields of an object. -/
abbrev Fields := List (Text × Json)

/-- Sets a field: a field of that name keeps its place, a new one comes last. -/
def Fields.set {α : Type} (fields : List (Text × α)) (name : Text) (value : α) :
    List (Text × α) :=
  match fields with
  | [] => [(name, value)]
  | (other, old) :: rest =>
    if other = name then (name, value) :: rest else (other, old) :: Fields.set rest name value

/-- Fields given one after the other; the last of a name counts. -/
def Fields.ofList (pairs : List (Text × Json)) : Fields :=
  pairs.foldl (fun fields (name, value) => Fields.set fields name value) []

/-- The field of a name. -/
def Fields.get? (fields : Fields) (name : Text) : Option Json :=
  fields.lookup name

namespace Json

/-- The field of an object. -/
def field? (j : Json) (name : Text) : Option Json :=
  match j with
  | .object fields => Fields.get? fields name
  | _ => none

/-- The text of a string. -/
def text? : Json → Option Text
  | .string t => some t
  | _ => none

end Json

end Renewal
