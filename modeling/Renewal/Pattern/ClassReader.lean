import Renewal.Pattern.Basic
import Renewal.Pattern.Escape

/-! # Reading classes of code points

A class stands in square brackets: single code points, ranges with a dash, and the classes that a
letter after a backslash stands for; a caret in front takes all other code points. A closing bracket
in the first place is an item.
-/

namespace Renewal.Pattern

/-- The classes that are written by a letter after the backslash. -/
def category? (c : CodePoint) : Option ClassItem :=
  let table : List (Char × ClassItem) :=
    [('s', .blank), ('S', .notBlank), ('d', .digit), ('D', .notDigit),
     ('w', .word), ('W', .notWord)]
  (table.find? fun (letter, _) => (letter : CodePoint) == c).map Prod.snd

/-- The item of a class that a token denotes. -/
def classItem : Token → Except PatternFault ClassItem
  | .plain c => .ok (.one c)
  | .dangling => .error .danglingBackslash
  | .escaped c =>
    match category? c, control? c with
    | some entry, _ => .ok entry
    | none, some d => .ok (.one d)
    | none, none =>
      if c = ('b' : CodePoint) then .ok (.one (.ofNat 8))
      else if c.isAsciiLetter || c.isAsciiDigit then .error (.badEscape ['\\', c])
      else .ok (.one c)

/-- The range between two items. -/
def rangeBetween : ClassItem → ClassItem → Option ClassItem
  | .one first, .one last =>
    if first.code ≤ last.code then some (.range first last) else none
  | _, _ => none

/-- How far a class has been read. -/
inductive ClassPhase where
  /-- Right after the bracket. -/
  | opened
  /-- Before an item. -/
  | ready
  /-- After an item that may begin a range. -/
  | after (token : Token) (item : ClassItem)
  /-- After an item and a dash. -/
  | dash (token : Token) (item : ClassItem)

/-- A class that has been opened. -/
structure OpenClass where
  /-- Where its bracket is. -/
  start : Nat
  negated : Bool := false
  /-- Its items so far, the latest first. -/
  items : List ClassItem := []
  phase : ClassPhase := .opened
  /-- The escape that is being read at the place of an item. -/
  escape : Option OpenEscape := none

namespace OpenClass

/-- A class that has been closed. -/
def closed (c : OpenClass) : CharClass :=
  ⟨c.items.reverse, c.negated⟩

/-- An item that a token begins and that ends before a position. -/
def take (c : OpenClass) (token : Token) (item : ClassItem) (stop : Nat) :
    Except Located OpenClass :=
  match c.phase with
  | .opened | .ready => .ok { c with phase := .after token item }
  | .after _ earlier => .ok { c with items := earlier :: c.items, phase := .after token item }
  | .dash first earlier =>
    match rangeBetween earlier item with
    | some range => .ok { c with items := range :: c.items, phase := .ready }
    | none =>
      .error (.badRange first.text token.text, stop - (first.width + 1 + token.width))

/-- Reads a token at the place of an item. -/
def item (c : OpenClass) (token : Token) (position : Nat) :
    Except Located OpenClass :=
  match OpenEscape.begin? true token position with
  | some e => .ok { c with escape := some e }
  | none =>
    match classItem token with
    | .ok entry => c.take token entry (position + token.width)
    | .error fault => .error (fault, position)

/-- Ends the escape that is being read. -/
def endEscape (c : OpenClass) (stop : Nat) : Except Located OpenClass :=
  match c.escape with
  | none => .ok c
  | some e =>
    match e.escape.value e.start stop with
    | .error fault => .error fault
    | .ok (.code d) => { c with escape := none }.take e.token (.one d) stop
    | .ok (.group number) => .error (.invalidGroup number, e.start)

/-- Looks at the next token before it is taken: it ends an escape that does not go on with it. -/
def settle (c : OpenClass) (next : Token) (position : Nat) :
    Except Located OpenClass :=
  if c.escape.any fun e => e.escape.goesOn next then .ok c else c.endEscape position

/-- Takes a token that has been looked at: the class goes on, or it is complete. -/
def step (c : OpenClass) (token : Token) (position : Nat) :
    Except Located (OpenClass ⊕ CharClass) :=
  match c.escape with
  | some e =>
    (e.escape.step e.start token position).map fun escape =>
      .inl { c with escape := some { e with escape } }
  | none =>
    let close := token = .plain ']'
    match c.phase with
    | .opened =>
      if token = .plain '^' then .ok (.inl { c with negated := true, phase := .ready })
      else (c.item token position).map .inl
    | .ready =>
      if close ∧ !c.items.isEmpty then .ok (.inr c.closed) else (c.item token position).map .inl
    | .after first earlier =>
      if token = .plain '-' then .ok (.inl { c with phase := .dash first earlier })
      else if close then .ok (.inr { c with items := earlier :: c.items }.closed)
      else (c.item token position).map .inl
    | .dash _ earlier =>
      if close then .ok (.inr { c with items := .one '-' :: earlier :: c.items }.closed)
      else (c.item token position).map .inl

end OpenClass

end Renewal.Pattern
