import Renewal.Text.Blank
import Renewal.Text.Digit
import Renewal.Text.Word

/-! # Patterns and where they match

A pattern describes pieces of text. `Pattern.run` looks for a way to match a pattern at a spot of a
text: it offers the ways in order of preference to a continuation and gives the first outcome that
the continuation accepts. Repetition prefers as many rounds as possible unless asked for as few as
possible; a round that takes nothing is the last one.
-/

namespace Renewal

/-- A part of a set of code points. -/
inductive ClassItem where
  | one (c : CodePoint)
  /-- The code points from one to another, both included. -/
  | range (first last : CodePoint)
  | blank
  | digit
  | word
  | notBlank
  | notDigit
  | notWord
deriving DecidableEq

/-- Whether a part of a set has a code point. -/
def ClassItem.contains : ClassItem → CodePoint → Bool
  | .one d, c => c == d
  | .range first last, c => first.code ≤ c.code && c.code ≤ last.code
  | .blank, c => c.isBlank
  | .digit, c => c.decimalDigit?.isSome
  | .word, c => c.isWord
  | .notBlank, c => !c.isBlank
  | .notDigit, c => c.decimalDigit?.isNone
  | .notWord, c => !c.isWord

/-- A set of code points: those of its parts, or all others. -/
structure CharClass where
  items : List ClassItem
  negated : Bool := false
deriving DecidableEq

/-- Whether a set has a code point. -/
def CharClass.contains (set : CharClass) (c : CodePoint) : Bool :=
  set.items.any (·.contains c) != set.negated

/-- A condition on the place between two code points. -/
inductive Edge where
  /-- The start of the text. -/
  | textStart
  /-- The end of the text. -/
  | textEnd
  /-- The end of the text or the newline that ends it. -/
  | lastLineEnd
  /-- Between a word character and something else. -/
  | word
  /-- Between two word characters or between two others. -/
  | notWord
deriving DecidableEq

/-- Which ways a repetition prefers. -/
inductive Greed where
  /-- As many rounds as possible. -/
  | most
  /-- As few rounds as possible. -/
  | least
deriving DecidableEq

/-- A pattern. -/
inductive Pattern where
  /-- Nothing. -/
  | empty
  /-- One code point of a set. -/
  | item (set : CharClass)
  | sequence (p q : Pattern)
  /-- Either of two patterns, the first preferred. -/
  | either (p q : Pattern)
  /-- What is matched is remembered under a number. -/
  | group (number : Nat) (p : Pattern)
  /-- Any number of code points of a set. -/
  | span (greed : Greed) (set : CharClass)
  /-- Any number of rounds. -/
  | many (greed : Greed) (p : Pattern)
  /-- Only the preferred way counts. -/
  | atomic (p : Pattern)
  /-- A condition on the place. -/
  | edge (e : Edge)
  /-- The pattern matches here, but nothing is taken. -/
  | ahead (p : Pattern)
  /-- The pattern does not match here. -/
  | notAhead (p : Pattern)
  /-- What a group has matched, once more. -/
  | again (number : Nat)
deriving DecidableEq

/-- A place in a text on the way through a match. -/
structure Spot where
  /-- How many code points the match has taken so far. -/
  taken : Nat
  /-- The code point before this place. -/
  before : Option CodePoint
  /-- What follows this place. -/
  rest : Text
  /-- What the groups have matched, the latest first. -/
  groups : List (Nat × Text)

namespace Spot

/-- The place after the next code point. -/
def advance (s : Spot) (c : CodePoint) (rest : Text) : Spot :=
  { s with taken := s.taken + 1, before := some c, rest }

/-- The place after a text. -/
def advanceBy (s : Spot) (t : Text) : Spot :=
  { s with taken := s.taken + t.length, before := t.getLast? <|> s.before
           rest := s.rest.drop t.length }

/-- Remembers what a group has matched since an earlier place. -/
def capture (s : Spot) (number : Nat) (start : Spot) : Spot :=
  { s with groups := (number, start.rest.take (s.taken - start.taken)) :: s.groups }

/-- Whether the code point before a place is a word character. -/
def afterWord (s : Spot) : Bool :=
  s.before.any CodePoint.isWord

/-- Whether the code point after a place is a word character. -/
def beforeWord (s : Spot) : Bool :=
  s.rest.head?.any CodePoint.isWord

end Spot

/-- Whether a place satisfies a condition. -/
def Edge.holds (s : Spot) : Edge → Bool
  | .textStart => s.before.isNone
  | .textEnd => s.rest.isEmpty
  | .lastLineEnd => s.rest.isEmpty || s.rest == [('\n' : CodePoint)]
  | .word => s.afterWord != s.beforeWord
  | .notWord => (s.before.isSome || !s.rest.isEmpty) && s.afterWord == s.beforeWord

namespace Pattern

/-- Code points of a set from a place on, then `after`; the text is what follows the place. -/
def spanFrom (greed : Greed) (set : CharClass) (after : Spot → Option Spot) :
    Text → Spot → Option Spot
  | [], s => after s
  | c :: rest, s =>
    if set.contains c then
      match greed with
      | .most => spanFrom greed set after rest (s.advance c rest) <|> after s
      | .least => after s <|> spanFrom greed set after rest (s.advance c rest)
    else after s

/-- Rounds of `round` from a place on, then `after`. The text `left` bounds the number of rounds
that take something. -/
def rounds (greed : Greed) (round : Spot → (Spot → Option Spot) → Option Spot)
    (after : Spot → Option Spot) : (left : Text) → Spot → Option Spot
  | [], s =>
    match greed with
    | .most => round s after <|> after s
    | .least => after s <|> round s after
  | _ :: left, s =>
    let another := fun _ : Unit => round s fun t =>
      if s.taken < t.taken then rounds greed round after left t else after t
    match greed with
    | .most => another () <|> after s
    | .least => after s <|> another ()

/-- The preferred way to match a pattern at a place that `after` accepts. -/
def run : Pattern → Spot → (after : Spot → Option Spot) → Option Spot
  | .empty, s, after => after s
  | .item set, s, after =>
    match s.rest with
    | [] => none
    | c :: rest => if set.contains c then after (s.advance c rest) else none
  | .sequence p q, s, after => p.run s fun t => q.run t after
  | .either p q, s, after => p.run s after <|> q.run s after
  | .group number p, s, after => p.run s fun t => after (t.capture number s)
  | .span greed set, s, after => spanFrom greed set after s.rest s
  | .many greed p, s, after => rounds greed p.run after s.rest s
  | .atomic p, s, after => p.run s some >>= after
  | .edge e, s, after => if e.holds s then after s else none
  | .ahead p, s, after => p.run s some >>= fun t => after { s with groups := t.groups }
  | .notAhead p, s, after => if (p.run s some).isSome then none else after s
  | .again number, s, after =>
    match s.groups.lookup number with
    | none => none
    | some t => if t.isPrefixOf s.rest then after (s.advanceBy t) else none

/-- The groups of a pattern that have a number. -/
structure Groups where
  count : Nat := 0
  /-- The numbers of those that have a name. -/
  names : List (Text × Nat) := []

/-- A given code point. -/
def one (c : CodePoint) : Pattern :=
  .item ⟨[.one c], false⟩

/-- One code point of those listed. -/
def oneOf (items : List ClassItem) : Pattern :=
  .item ⟨items, false⟩

/-- Patterns one after the other. -/
def all : List Pattern → Pattern
  | [] => .empty
  | [p] => p
  | p :: ps => .sequence p (all ps)

/-- The first of several patterns that matches. -/
def firstOf : List Pattern → Pattern
  | [] => .empty
  | [p] => p
  | p :: ps => .either p (firstOf ps)

/-- A given text. -/
def exactly (t : Text) : Pattern :=
  all (t.map one)

/-- Any number of rounds; rounds of one code point are a span. -/
def anyNumber (p : Pattern) (greed : Greed := .most) : Pattern :=
  match p with
  | .item set => .span greed set
  | p => .many greed p

/-- At least one round. -/
def atLeastOnce (p : Pattern) (greed : Greed := .most) : Pattern :=
  .sequence p (p.anyNumber greed)

/-- At most so many rounds. -/
def atMost (p : Pattern) (greed : Greed) : Nat → Pattern
  | 0 => .empty
  | n + 1 =>
    let rounds := if n = 0 then p else .sequence p (atMost p greed n)
    match greed with
    | .most => .either rounds .empty
    | .least => .either .empty rounds

/-- Any run of white space. -/
def blanks : Pattern :=
  (oneOf [.blank]).anyNumber

end Pattern

end Renewal
