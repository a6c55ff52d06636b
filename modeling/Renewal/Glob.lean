import Renewal.Pattern.Basic

/-! # Patterns for file names

In a file name pattern an asterisk stands for anything, a question mark for one code point, and
brackets for one code point of a set, or outside it after an exclamation mark. A bracket that is
never closed stands for itself. Ranges that would be empty are left out of a set.
-/

namespace Renewal

/-- A part of a file name pattern. -/
inductive GlobItem where
  /-- Any code points. -/
  | anything
  /-- One code point of a set. -/
  | one (set : CharClass)
deriving DecidableEq

namespace Glob

/-- A set that has every code point. -/
def everyCode : CharClass :=
  ⟨[], true⟩

/-- The length of a bracket's body, if the bracket is closed. A closing bracket in the first place
belongs to the body. -/
def bodyLength? (t : Text) : Option Nat :=
  let sign := if t.head? = some ('!' : CodePoint) then 1 else 0
  let first := if (t.drop sign).head? = some (']' : CodePoint) then 1 else 0
  let rest := t.drop (sign + first)
  let length := (rest.takeWhile (· != (']' : CodePoint))).length
  if length = rest.length then none else some (sign + first + length)

/-- Where the first dash from a position on is. -/
def dashFrom? (least : Nat) (t : Text) : Option Nat :=
  ((t.drop least).findIdx? (· == ('-' : CodePoint))).map (· + least)

/-- A body cut at the dashes that make ranges. No dash counts before `least` code points, and none
right after a range. A dash at the very end belongs to what is before it. -/
def chunksFrom : (bound : Nat) → (least : Nat) → Text → List Text
  | 0, _, t => [t]
  | bound + 1, least, t =>
    match dashFrom? least t with
    | none => [t]
    | some k =>
      let rest := t.drop (k + 1)
      if rest.isEmpty then [t] else t.take k :: chunksFrom bound 2 rest

/-- The chunks of a body. -/
def chunks (body : Text) : List Text :=
  chunksFrom body.length (if body.head? = some ('!' : CodePoint) then 2 else 1) body

/-- Leaves out ranges that would be empty. -/
def dropEmptyRanges (chunks : List Text) : List Text :=
  chunks.foldr (fun chunk later =>
    match later, chunk.getLast? with
    | next :: more, some first =>
      if next.head?.any (·.code < first.code) then (chunk.dropLast ++ next.tail) :: more
      else chunk :: next :: more
    | _, _ => chunk :: later) []

/-- A code point of a body, or a dash that makes a range. -/
inductive Mark where
  | code (c : CodePoint)
  | dash
deriving DecidableEq

/-- Chunks with the dashes between them. -/
def marks (chunks : List Text) : List Mark :=
  ((chunks.map fun chunk => chunk.map Mark.code).intersperse [.dash]).flatten

/-- The items of a set. A dash that follows no code point stands for itself. -/
def items : List Mark → List ClassItem
  | .code a :: .dash :: .code b :: rest => .range a b :: items rest
  | .code a :: rest => .one a :: items rest
  | .dash :: rest => .one '-' :: items rest
  | [] => []

/-- The set that a bracket's body denotes. -/
def setOf (body : Text) : CharClass :=
  match marks (dropEmptyRanges (chunks body)) with
  | [] => ⟨[], false⟩
  | first :: rest =>
    if first = .code '!' then ⟨items rest, true⟩ else ⟨items (first :: rest), false⟩

/-- The parts of a pattern of which the first `skip` code points have been read already. -/
def ofTextFrom : (skip : Nat) → Text → List GlobItem
  | _, [] => []
  | skip + 1, _ :: rest => ofTextFrom skip rest
  | 0, c :: rest =>
    if c = ('*' : CodePoint) then .anything :: ofTextFrom 0 rest
    else if c = ('?' : CodePoint) then .one everyCode :: ofTextFrom 0 rest
    else if c = ('[' : CodePoint) then
      match bodyLength? rest with
      | none => .one ⟨[.one c], false⟩ :: ofTextFrom 0 rest
      | some length => .one (setOf (rest.take length)) :: ofTextFrom (length + 1) rest
    else .one ⟨[.one c], false⟩ :: ofTextFrom 0 rest

/-- The parts of a pattern. -/
def ofText (t : Text) : List GlobItem :=
  ofTextFrom 0 t

/-- Whether there is a truth from each place on. -/
def someFrom : List Bool → List Bool
  | [] => []
  | b :: rest =>
    let later := someFrom rest
    (b || later.headD false) :: later

/-- Which ends of a text the parts of a pattern match, from the whole text down to the empty end.
Each part takes one pass over the ends. -/
def matchesEnds : List GlobItem → Text → List Bool
  | [], t => t.map (fun _ => false) ++ [true]
  | .anything :: rest, t => someFrom (matchesEnds rest t)
  | .one set :: rest, t =>
    List.zipWith (fun c later => set.contains c && later) t (matchesEnds rest t).tail ++ [false]

/-- Whether the parts of a pattern match a whole text. -/
def matchesAll (items : List GlobItem) (t : Text) : Bool :=
  (matchesEnds items t).headD false

end Glob

/-- Whether a file name matches a file name pattern. -/
def globMatches (pattern name : Text) : Bool :=
  Glob.matchesAll (Glob.ofText pattern) name

end Renewal
