import Renewal.Pattern.Basic

/-! # Searching a text for a pattern

The matches of a pattern in a text are found from left to right and do not overlap. A match of
nothing may stand right after another match, but not twice at one place. `Pattern.pieces` cuts a
text into the matches and the code points between them; searching and substitution are read off
the pieces.
-/

namespace Renewal

/-- What a pattern has matched. -/
structure Match where
  /-- The whole of it. -/
  text : Text
  /-- What its groups have matched, the latest first. -/
  groups : List (Nat × Text)

/-- What a group has matched; number zero is the whole match. -/
def Match.group? (m : Match) (number : Nat) : Option Text :=
  if number = 0 then some m.text else m.groups.lookup number

/-- A part of a text that has been searched. -/
inductive Piece where
  /-- A code point outside all matches. -/
  | kept (c : CodePoint)
  | hit (m : Match)

namespace Pattern

/-- The match that leads from the start of a search to a place. -/
def matchTo (rest : Text) (s : Spot) : Match :=
  ⟨rest.take s.taken, s.groups⟩

/-- The preferred match at a place. -/
def matchAt? (p : Pattern) (before : Option CodePoint) (rest : Text) : Option Match :=
  (p.run ⟨0, before, rest, []⟩ some).map (matchTo rest)

/-- The preferred match at a place among those that take something. -/
def properMatchAt? (p : Pattern) (before : Option CodePoint) (rest : Text) : Option Match :=
  (p.run ⟨0, before, rest, []⟩ fun s => if 0 < s.taken then some s else none).map
    (matchTo rest)

/-- The matches that start at a place: the preferred one, and if it takes nothing, one more that
takes something. -/
def matchesAt (p : Pattern) (before : Option CodePoint) (rest : Text) : List Match :=
  match p.matchAt? before rest with
  | none => []
  | some m =>
    if m.text.isEmpty then m :: (p.properMatchAt? before rest).toList else [m]

/-- The pieces of a text of which the first `skip` code points belong to a match already found. -/
def piecesFrom (p : Pattern) : (skip : Nat) → (before : Option CodePoint) → Text → List Piece
  | 0, before, [] => (p.matchesAt before []).map .hit
  | _ + 1, _, [] => []
  | skip + 1, _, c :: rest => piecesFrom p skip (some c) rest
  | 0, before, c :: rest =>
    let found := p.matchesAt before (c :: rest)
    let taken := (found.getLast?.map (·.text.length)).getD 0
    if taken = 0 then found.map .hit ++ .kept c :: piecesFrom p 0 (some c) rest
    else found.map .hit ++ piecesFrom p (taken - 1) (some c) rest

/-- The pieces of a text. -/
def pieces (p : Pattern) (t : Text) : List Piece :=
  p.piecesFrom 0 none t

/-- The matches of a pattern in a text. -/
def findAll (p : Pattern) (t : Text) : List Match :=
  (p.pieces t).filterMap fun
    | .kept _ => none
    | .hit m => some m

/-- A text with every match replaced, and how many there were. -/
def replaceAll (p : Pattern) (replacement : Match → Text) (t : Text) : Text × Nat :=
  let ps := p.pieces t
  (ps.flatMap fun
    | .kept c => [c]
    | .hit m => replacement m,
   ps.countP fun
    | .kept _ => false
    | .hit _ => true)

end Pattern

end Renewal
