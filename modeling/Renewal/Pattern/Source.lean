import Renewal.Pattern.ClassReader
import Renewal.Text.Name

/-! # Reading patterns

The written form of a pattern: code points stand for themselves, a class of them stands in square
brackets, parentheses make groups, a bar separates alternatives, and an asterisk, a plus sign, a
question mark or bounds in braces repeat what is before them. Another question mark after that
prefers few rounds, a plus sign makes the repetition keep what it has taken. A question mark after
an opening parenthesis begins a head, which says what kind of group it is. Flags, conditions on what
stands before and groups that depend on others are told apart from faults of spelling, but not read,
and no character is known by its name. The reader goes over the tokens once and keeps the groups
that are still open on a stack.
-/

namespace Renewal.Pattern

/-- How often something is repeated. -/
structure Quantifier where
  least : Nat
  most : Option Nat
deriving DecidableEq

/-- The quantifier that a code point denotes. -/
def Quantifier.ofCode? (c : CodePoint) : Option Quantifier :=
  if c = ('*' : CodePoint) then some ⟨0, none⟩
  else if c = ('+' : CodePoint) then some ⟨1, none⟩
  else if c = ('?' : CodePoint) then some ⟨0, some 1⟩
  else none

/-- A repeated pattern. -/
def Quantifier.repeated (q : Quantifier) (greed : Greed) (p : Pattern) : Pattern :=
  let more := match q.most with
    | none => p.anyNumber greed
    | some most => p.atMost greed (most - q.least)
  all (List.replicate q.least p ++ [more])

/-- A part of an alternative that has been read. -/
inductive Part where
  /-- It can be repeated. -/
  | simple (p : Pattern)
  /-- A condition on the place; it cannot be repeated. -/
  | place (e : Edge)
  /-- A repetition whose manner may still be told by the next token. -/
  | repetition (q : Quantifier) (p : Pattern)
  /-- A repetition with its manner told. -/
  | settled (p : Pattern)

/-- The pattern of a part. -/
def Part.pattern : Part → Pattern
  | .simple p => p
  | .place e => .edge e
  | .repetition q p => q.repeated .most p
  | .settled p => p

/-- The alternatives read so far at one depth. -/
structure Level where
  /-- The parts of the last alternative, the latest first. -/
  parts : List Part := []
  /-- The alternatives before it, the latest first. -/
  branches : List Pattern := []

namespace Level

/-- Another part of the last alternative. -/
def push (l : Level) (part : Part) : Level :=
  { l with parts := part :: l.parts }

/-- The last alternative as a pattern. -/
def branch (l : Level) : Pattern :=
  all (l.parts.reverse.map Part.pattern)

/-- A new alternative. -/
def divide (l : Level) : Level :=
  { parts := [], branches := l.branch :: l.branches }

/-- All alternatives as one pattern. -/
def pattern (l : Level) : Pattern :=
  firstOf (l.branches.reverse ++ [l.branch])

/-- Nothing more is told about the manner of the last repetition. -/
def settle (l : Level) : Level :=
  match l.parts with
  | .repetition q p :: before => { l with parts := .settled (q.repeated .most p) :: before }
  | _ => l

/-- A quantifier after what has been read. -/
def quantify (l : Level) (q : Quantifier) : Except PatternFault Level :=
  match l.parts with
  | [] => .error .nothingToRepeat
  | .place _ :: _ => .error .nothingToRepeat
  | .settled _ :: _ | .repetition _ _ :: _ => .error .multipleRepeat
  | .simple p :: before => .ok { l with parts := .repetition q p :: before }

/-- A code point that is a quantifier: right after a repetition, a question mark or a plus sign
tells its manner. -/
def quantifyBy (l : Level) (c : CodePoint) (q : Quantifier) : Except PatternFault Level :=
  match l.parts with
  | .repetition q' p :: before =>
    if c = ('?' : CodePoint) then
      .ok { l with parts := .settled (q'.repeated .least p) :: before }
    else if c = ('+' : CodePoint) then
      .ok { l with parts := .settled (.atomic (q'.repeated .most (.atomic p))) :: before }
    else l.quantify q
  | _ => l.quantify q

end Level

/-- The kinds of groups. -/
inductive GroupKind where
  /-- What it matches is remembered. -/
  | numbered (n : Nat)
  | plain
  | atomic
  | ahead
  | notAhead
deriving DecidableEq

/-- A group of a kind. -/
def GroupKind.pattern (kind : GroupKind) (inside : Pattern) : Pattern :=
  match kind with
  | .numbered n => .group n inside
  | .plain => inside
  | .atomic => .atomic inside
  | .ahead => .ahead inside
  | .notAhead => .notAhead inside

/-- A group that has been opened. -/
structure OpenGroup where
  /-- Where its parenthesis is. -/
  start : Nat
  kind : GroupKind
  /-- What has been read around it. -/
  around : Level

/-- The bounds of a repetition as far as they have been read. -/
structure Bounds where
  low : Text := []
  comma : Bool := false
  high : Text := []

namespace Bounds

/-- Bounds as they are written. -/
def text (b : Bounds) : Text :=
  .concat ["\x7b", b.low, if b.comma then "," else "", b.high]

/-- Whether bounds go on with a token. -/
def goesOn (b : Bounds) (token : Token) : Bool :=
  match token with
  | .plain c =>
    c.isAsciiDigit || c == (',' : CodePoint) && !b.comma ||
      c == ('\x7d' : CodePoint) && (b.comma || !b.low.isEmpty)
  | _ => false

/-- Bounds with one more digit or the comma. -/
def add (b : Bounds) (token : Token) : Bounds :=
  if token = .plain ',' then { b with comma := true }
  else if b.comma then { b with high := b.high ++ token.text }
  else { b with low := b.low ++ token.text }

/-- Numbers of rounds are below this. -/
def limit : Nat := Nat.pow 2 32 - 1

/-- The quantifier that complete bounds denote. -/
def quantifier (b : Bounds) : Except PatternFault Quantifier :=
  let low := numberOf 10 b.low
  let high := if b.comma then numberOf 10 b.high else low
  if limit ≤ low ∨ limit ≤ high then .error .repetitionTooLarge
  else if b.comma ∧ b.high.isEmpty then .ok ⟨low, none⟩
  else if high < low then .error .boundsInDisorder
  else .ok ⟨low, some high⟩

end Bounds

/-- The flags that the head of a group turns on or off. -/
inductive FlagMode where
  /-- After flags that are turned on. -/
  | on (flags : Text)
  /-- After a dash and the flags that are turned off. -/
  | off (flags turnedOff : Text)

/-- Flags as they are written. -/
def FlagMode.text : FlagMode → Text
  | .on flags => flags
  | .off flags turnedOff => flags ++ ('-' : CodePoint) :: turnedOff

/-- What the reader is in the middle of. -/
inductive Mode where
  /-- Between parts. -/
  | parts
  /-- Right after a parenthesis at a position. -/
  | opening (start : Nat)
  /-- After a parenthesis and a question mark. -/
  | head (start : Nat)
  /-- After a parenthesis, a question mark and the letter that names begin with. -/
  | nameHead (start : Nat)
  /-- After a parenthesis, a question mark and a less-than sign. -/
  | behindHead (start : Nat)
  /-- In the name of a new group. -/
  | name (start : Nat) (read : Text)
  /-- In the name of a group that is referred to. -/
  | reference (read : Text)
  /-- In a comment. -/
  | comment (start : Nat)
  | flags (start : Nat) (f : FlagMode)
  | bounds (start : Nat) (b : Bounds)
  | escape (e : OpenEscape)
  | inClass (c : OpenClass)

/-- Whether a closing parenthesis would close a group. -/
def Mode.betweenParts : Mode → Bool
  | .parts | .opening _ => true
  | _ => false

/-- What has been read of a pattern. -/
structure Reader where
  level : Level := {}
  /-- The open groups, the innermost first. -/
  outer : List OpenGroup := []
  groups : Groups := {}
  mode : Mode := .parts

/-- The conditions on the place that are written by a letter after the backslash. -/
def place? (c : CodePoint) : Option Edge :=
  let table : List (Char × Edge) :=
    [('A', .textStart), ('Z', .textEnd), ('b', .word), ('B', .notWord)]
  (table.find? fun (letter, _) => (letter : CodePoint) == c).map Prod.snd

namespace Reader

/-- Another part. -/
def push (r : Reader) (part : Part) : Reader :=
  { r with level := r.level.push part, mode := .parts }

/-- Code points that stand for themselves. -/
def pushCodes (r : Reader) (t : Text) : Reader :=
  t.foldl (fun r c => r.push (.simple (one c))) r

/-- Opens a group. -/
def openGroup (r : Reader) (start : Nat) (kind : GroupKind) : Reader :=
  { r with level := {}, outer := ⟨start, kind, r.level⟩ :: r.outer, mode := .parts }

/-- Opens a group with the next number. -/
def openNumbered (r : Reader) (start : Nat) : Reader :=
  let number := r.groups.count + 1
  { r with groups := { r.groups with count := number } }.openGroup start (.numbered number)

/-- Opens a group with the next number and a name, which was written at a position. -/
def openNamed (r : Reader) (start : Nat) (name : Text) (position : Nat) :
    Except Located Reader :=
  let number := r.groups.count + 1
  match r.groups.names.lookup name with
  | some earlier => .error (.nameTwice name number earlier, position)
  | none =>
    let r := r.openNumbered start
    .ok { r with groups := { r.groups with names := (name, number) :: r.groups.names } }

/-- Closes the innermost group, if one is open. -/
def closeGroup? (r : Reader) : Option Reader :=
  match r.outer with
  | [] => none
  | g :: outer =>
    some { r with level := g.around.push (.simple (g.kind.pattern r.level.pattern))
                  outer, mode := .parts }

/-- Whether a group is still open. -/
def isOpen (r : Reader) (number : Nat) : Bool :=
  r.outer.any fun g => g.kind == .numbered number

/-- A reference to a group that was written at a position. -/
def refer (r : Reader) (number position : Nat) : Except Located Reader :=
  if r.isOpen number then .error (.referenceToOpen, position)
  else .ok (r.push (.simple (.again number)))

/-- Reads an escaped code point. -/
def escape (r : Reader) (c : CodePoint) (position : Nat) : Except Located Reader :=
  match place? c, category? c, control? c with
  | some e, _, _ => .ok (r.push (.place e))
  | none, some entry, _ => .ok (r.push (.simple (oneOf [entry])))
  | none, none, some d => .ok (r.push (.simple (one d)))
  | none, none, none =>
    match OpenEscape.begin? false (.escaped c) position with
    | some e => .ok { r with mode := .escape e }
    | none =>
      if c.isAsciiLetter then .error (.badEscape ['\\', c], position)
      else .ok (r.push (.simple (one c)))

/-- Ends an escape before a position. -/
def endEscape (r : Reader) (e : OpenEscape) (stop : Nat) : Except Located Reader :=
  match e.escape.value e.start stop with
  | .error fault => .error fault
  | .ok (.code c) => .ok (r.push (.simple (one c)))
  | .ok (.group number) =>
    if number ≤ r.groups.count then r.refer number e.start
    else .error (.invalidGroup number, e.start + 1)

/-- Reads a code point that stands alone, closing parentheses apart. -/
def plain (r : Reader) (c : CodePoint) (position : Nat) : Except Located Reader :=
  match Quantifier.ofCode? c with
  | some q =>
    match r.level.quantifyBy c q with
    | .ok level => .ok { r with level, mode := .parts }
    | .error fault => .error (fault, position)
  | none =>
    if c = ('(' : CodePoint) then .ok { r with mode := .opening position }
    else if c = ('|' : CodePoint) then .ok { r with level := r.level.divide, mode := .parts }
    else if c = ('[' : CodePoint) then .ok { r with mode := .inClass { start := position } }
    else if c = ('\x7b' : CodePoint) then .ok { r with mode := .bounds position {} }
    else if c = ('.' : CodePoint) then .ok (r.push (.simple (.item ⟨[.one '\n'], true⟩)))
    else if c = ('^' : CodePoint) then .ok (r.push (.place .textStart))
    else if c = ('$' : CodePoint) then .ok (r.push (.place .lastLineEnd))
    else .ok (r.push (.simple (one c)))

/-- Reads a token between parts. -/
def part (r : Reader) (token : Token) (position : Nat) : Except Located Reader :=
  match token with
  | .dangling => .error (.danglingBackslash, position)
  | .escaped c => r.escape c position
  | .plain c =>
    if c = (')' : CodePoint) then .ok (r.closeGroup?.getD r) else r.plain c position

/-- Reads one more token of bounds that began at a position. -/
def bound (r : Reader) (start : Nat) (b : Bounds) (token : Token) : Except Located Reader :=
  if token = .plain '\x7d' then
    match b.quantifier with
    | .error fault => .error (fault, start + 1)
    | .ok q =>
      match r.level.quantify q with
      | .ok level => .ok { r with level, mode := .parts }
      | .error fault => .error (fault, start)
  else .ok { r with mode := .bounds start (b.add token) }

/-- The letters of flags. -/
def isFlag (token : Token) : Bool :=
  token.plain?.any fun c => ("aiLmstux" : Text).contains c

/-- Whether a token is a letter. -/
def isLetter (token : Token) : Bool :=
  token.plain?.any fun c => c.startsName && c != ('_' : CodePoint)

/-- Reads the token after a parenthesis and a question mark. -/
def head (r : Reader) (start : Nat) (token : Token) (position : Nat) : Except Located Reader :=
  let is (c : Char) : Bool := token == .plain c
  if is ':' then .ok (r.openGroup start .plain)
  else if is '>' then .ok (r.openGroup start .atomic)
  else if is '=' then .ok (r.openGroup start .ahead)
  else if is '!' then .ok (r.openGroup start .notAhead)
  else if is '#' then .ok { r with level := r.level.settle, mode := .comment start }
  else if is 'P' then .ok { r with mode := .nameHead start }
  else if is '<' then .ok { r with mode := .behindHead start }
  else if is '-' then .ok { r with mode := .flags start (.off [] []) }
  else if is 'L' then .error (.localeFlag, position + 1)
  else if isFlag token then .ok { r with mode := .flags start (.on token.text) }
  else if is '(' then .error (.unsupported token.text, position - 1)
  else .error (.unknownExtension token.text, position - 1)

/-- Flags of which no two can be turned on together. -/
def areRivals (flags : Text) : Bool :=
  flags.contains ('a' : CodePoint) && flags.contains ('u' : CodePoint)

/-- Reads one more token of the flags in a head. What flags mean is not known here, so a complete
head is a fault as well. -/
def flag (r : Reader) (start : Nat) (f : FlagMode) (token : Token) (position : Nat) :
    Except Located Reader :=
  let unsupported : Located := (.unsupported (f.text ++ token.text), start + 1)
  match f with
  | .on flags =>
    if token = .plain ')' then
      let inFront := r.outer.isEmpty && r.level.parts.isEmpty && r.level.branches.isEmpty
      .error (if inFront then unsupported else (.flagsNotInFront, start))
    else if token = .plain '-' ∨ token = .plain ':' then
      if flags.contains ('t' : CodePoint) then .error (.globalFlagOn, position)
      else if token = .plain '-' then .ok { r with mode := .flags start (.off flags []) }
      else .error unsupported
    else if token = .plain 'L' then .error (.localeFlag, position + 1)
    else if isFlag token then
      if areRivals (flags ++ token.text) then .error (.rivalFlags, position + 1)
      else .ok { r with mode := .flags start (.on (flags ++ token.text)) }
    else .error (if isLetter token then .unknownFlag else .unfinishedFlags, position)
  | .off flags turnedOff =>
    if token = .plain ':' ∧ !turnedOff.isEmpty then
      if turnedOff.contains ('t' : CodePoint) then .error (.globalFlagOff, position)
      else if turnedOff.any flags.contains then .error (.flagOnAndOff, position)
      else .error unsupported
    else if isFlag token then
      if token.plain?.any ("auL" : Text).contains then .error (.typeFlagOff, position + 1)
      else .ok { r with mode := .flags start (.off flags (turnedOff ++ token.text)) }
    else
      .error (if isLetter token then .unknownFlag
        else if turnedOff.isEmpty then .missingFlag else .missingColon, position)

/-- Reads one more token of a name; the name ends at `closing`. -/
def nameStep (read : Text) (closing : Char) (token : Token) (position : Nat) :
    Except Located (Text ⊕ Text) :=
  if token = .plain closing then
    if read.isEmpty then .error (.missingName, position)
    else if read.isName then .ok (.inr read)
    else .error (.badName read, position - read.length)
  else .ok (.inl (read ++ token.text))

/-- Looks at the next token before it is taken: it ends bounds and escapes that do not go on with
it, and a group that has no head begins with it. -/
def settle (r : Reader) (next : Token) (position : Nat) : Except Located Reader :=
  match r.mode with
  | .opening start =>
    .ok (if next = .plain '?' then r else r.openNumbered start)
  | .bounds _ b => .ok (if b.goesOn next then r else r.pushCodes b.text)
  | .escape e => if e.escape.goesOn next then .ok r else r.endEscape e position
  | .inClass c => (c.settle next position).map fun c => { r with mode := .inClass c }
  | _ => .ok r

/-- Takes a token that has been looked at. -/
def step (r : Reader) (token : Token) (position : Nat) : Except Located Reader :=
  match r.mode with
  | .parts => r.part token position
  | .opening start => .ok { r with mode := .head start }
  | .head start => r.head start token position
  | .nameHead start =>
    if token = .plain '<' then .ok { r with mode := .name start [] }
    else if token = .plain '=' then .ok { r with mode := .reference [] }
    else .error (.unknownExtension ('P' :: token.text), position - 2)
  | .behindHead _ =>
    let mark : Text := '<' :: token.text
    .error (if token = .plain '=' ∨ token = .plain '!' then .unsupported mark
      else .unknownExtension mark, position - 2)
  | .name start read =>
    match nameStep read '>' token position with
    | .error fault => .error fault
    | .ok (.inl read) => .ok { r with mode := .name start read }
    | .ok (.inr name) => r.openNamed start name (position - name.length)
  | .reference read =>
    match nameStep read ')' token position with
    | .error fault => .error fault
    | .ok (.inl read) => .ok { r with mode := .reference read }
    | .ok (.inr name) =>
      match r.groups.names.lookup name with
      | some number => r.refer number (position - name.length)
      | none => .error (.unknownGroup name, position - name.length)
  | .comment _ => .ok (if token = .plain ')' then { r with mode := .parts } else r)
  | .flags start f => r.flag start f token position
  | .bounds start b => r.bound start b token
  | .escape e =>
    (e.escape.step e.start token position).map fun escape =>
      { r with mode := .escape { e with escape } }
  | .inClass c =>
    match c.step token position with
    | .error fault => .error fault
    | .ok (.inl c) => .ok { r with mode := .inClass c }
    | .ok (.inr set) => .ok (r.push (.simple (.item set)))

/-- The pattern, once all tokens are read and nothing is in the middle. -/
def complete (r : Reader) : Except Located (Pattern × Groups) :=
  match r.outer with
  | g :: _ => .error (.unterminatedGroup, g.start)
  | [] => .ok (r.level.pattern, r.groups)

/-- The pattern, once all tokens are read. -/
def finish (r : Reader) (position : Nat) : Except Located (Pattern × Groups) :=
  match r.mode with
  | .parts => r.complete
  | .opening start => .error (.unterminatedGroup, start)
  | .head _ | .nameHead _ | .behindHead _ => .error (.unexpectedEnd, position)
  | .name _ read =>
    .error (if read.isEmpty then (.missingName, position)
      else (.unterminatedName '>', position - read.length))
  | .reference read =>
    .error (if read.isEmpty then (.missingName, position)
      else (.unterminatedName ')', position - read.length))
  | .comment start => .error (.unterminatedComment, start)
  | .flags _ (.on _) => .error (.unfinishedFlags, position)
  | .flags _ (.off _ turnedOff) =>
    .error (if turnedOff.isEmpty then .missingFlag else .missingColon, position)
  | .bounds _ b => (r.pushCodes b.text).complete
  | .escape e => r.endEscape e position >>= complete
  | .inClass c => c.endEscape position >>= fun c => .error (.unterminatedClass, c.start)

/-- Reads tokens from a position on. A closing parenthesis that closes nothing is a fault before it
is taken; a backslash at the very end is one as soon as the token before it is taken. -/
def readAll : List Token → Nat → Reader → Except Located (Pattern × Groups)
  | [], position, r => r.finish position
  | token :: rest, position, r =>
    match r.settle token position with
    | .error fault => .error fault
    | .ok r =>
      if r.mode.betweenParts && token == .plain ')' && r.outer.isEmpty then
        .error (.unbalancedParenthesis, position)
      else if rest.head? = some .dangling then
        .error (.danglingBackslash, position + token.width)
      else
        match r.step token position with
        | .error fault => .error fault
        | .ok r => readAll rest (position + token.width) r

end Reader

/-- The pattern that a text writes, and its groups. -/
def ofText (source : Text) : Except PatternError (Pattern × Groups) :=
  (Reader.readAll (Token.ofText source) 0 {}).mapError fun (fault, position) =>
    ⟨fault, position, source⟩

end Renewal.Pattern
