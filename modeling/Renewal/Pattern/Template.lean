import Renewal.Pattern.Escape
import Renewal.Pattern.Search
import Renewal.Text.Integer
import Renewal.Text.Name

/-! # Templates

What is put in place of a match is written as a template: code points stand for themselves, and a
backslash with a number, or with `g` and a number in angle brackets, stands for what a group has
matched. A text without backslashes is taken as it is.
-/

namespace Renewal

namespace Template

/-- A part of a template. -/
inductive Part where
  | literal (t : Text)
  /-- What a group has matched; nothing if it has matched nothing. -/
  | group (number : Nat)
deriving DecidableEq

/-- The control characters that are written by a letter after the backslash. -/
def control? (c : CodePoint) : Option CodePoint :=
  if c = ('b' : CodePoint) then some (.ofNat 8) else Pattern.control? c

/-- What the reader is in the middle of. -/
inductive Mode where
  | parts
  /-- After a backslash and the letter g. -/
  | reference
  /-- In a group's name, which began at a position. -/
  | name (start : Nat) (read : Text)
  /-- In a numeral that began at a position, with its digits so far. -/
  | numeral (start : Nat) (digits : Text)

/-- A reference to a group; the position is where the reference is written. -/
def reference (groups : Pattern.Groups) (number position : Nat) : Except Located Part :=
  if groups.count < number then .error (.invalidGroup number, position) else .ok (.group number)

/-- A reference to a group by what stands in angle brackets. -/
def named (groups : Pattern.Groups) (start : Nat) (name : Text) : Except Located Part :=
  if name.isName then
    match groups.names.lookup name with
    | some number => .ok (.group number)
    | none => .error (.unknownName name, start)
  else
    match Integer.read name with
    | .ok (.ofNat number) => reference groups number start
    | _ => .error (.badName name, start)

/-- The part that a numeral after a backslash denotes: three octal digits, or any that begin with a
zero, are the number of a code point, all others the number of a group. -/
def numeral (groups : Pattern.Groups) (start : Nat) (digits : Text) : Except Located Part :=
  let octal := Pattern.numberOf 8 digits
  let decimal := Pattern.numberOf 10 digits
  if digits.head? = some ('0' : CodePoint) then .ok (.literal [.ofNat (octal % 256)])
  else if digits.length = 3 then
    if 255 < octal then .error (.octalTooLarge ('\\' :: digits), start)
    else .ok (.literal [.ofNat octal])
  else reference groups decimal (start + 1)

/-- Whether a numeral goes on with a code point. -/
def continues (digits : Text) (c : CodePoint) : Bool :=
  if digits.head? = some ('0' : CodePoint) then digits.length < 3 && Pattern.isOctal c
  else if digits.length = 1 then c.isAsciiDigit
  else digits.length = 2 && digits.all Pattern.isOctal && Pattern.isOctal c

/-- Reads a token between parts: a part or something that goes on. -/
def part (token : Token) (position : Nat) : Except Located (Part ⊕ Mode) :=
  match token with
  | .dangling => .error (.danglingBackslash, position)
  | .plain c => .ok (.inl (.literal [c]))
  | .escaped c =>
    if c = ('g' : CodePoint) then .ok (.inr .reference)
    else if c.isAsciiDigit then .ok (.inr (.numeral position [c]))
    else
      match control? c with
      | some d => .ok (.inl (.literal [d]))
      | none =>
        if c.isAsciiLetter then .error (.badEscape ['\\', c], position)
        else .ok (.inl (.literal ['\\', c]))

/-- Looks at the next token before it is taken: it ends a numeral that it does not continue, and a
reference needs an angle bracket. Gives the parts that are complete now, and how the reader goes
on. -/
def settle (groups : Pattern.Groups) (mode : Mode) (next : Token) (position : Nat) :
    Except Located (List Part × Mode) :=
  match mode with
  | .numeral start digits =>
    if next.plain?.any (continues digits) then .ok ([], mode)
    else (numeral groups start digits).map fun p => ([p], .parts)
  | .reference =>
    if next = .plain '<' then .ok ([], mode) else .error (.missingOpen, position)
  | _ => .ok ([], mode)

/-- Takes a token that has been looked at: the parts that are complete now, and how the reader goes
on. -/
def step (groups : Pattern.Groups) (mode : Mode) (token : Token) (position : Nat) :
    Except Located (List Part × Mode) :=
  match mode with
  | .parts =>
    (part token position).map fun
      | .inl p => ([p], .parts)
      | .inr mode => ([], mode)
  | .reference => .ok ([], .name (position + 1) [])
  | .name start read =>
    if token = .plain '>' then
      if read.isEmpty then .error (.missingName, position)
      else (named groups start read).map fun p => ([p], .parts)
    else .ok ([], .name start (read ++ token.text))
  | .numeral start digits => .ok ([], .numeral start (digits ++ token.text))

/-- What is left to do once all tokens are read. -/
def finish (groups : Pattern.Groups) (mode : Mode) (position : Nat) :
    Except Located (List Part) :=
  match mode with
  | .parts => .ok []
  | .reference => .error (.missingOpen, position)
  | .name start read =>
    if read.isEmpty then .error (.missingName, position) else .error (.unterminatedName '>', start)
  | .numeral start digits => (numeral groups start digits).map ([·])

/-- Reads tokens from a position on. A backslash at the very end is a fault as soon as the token
before it is taken. -/
def readAll (groups : Pattern.Groups) : List Token → Nat → Mode → Except Located (List Part)
  | [], position, mode => finish groups mode position
  | token :: rest, position, mode =>
    match settle groups mode token position with
    | .error e => .error e
    | .ok (settled, mode) =>
      if rest.head? = some .dangling then .error (.danglingBackslash, position + token.width)
      else
        match step groups mode token position with
        | .error e => .error e
        | .ok (done, mode) =>
          (readAll groups rest (position + token.width) mode).map (settled ++ done ++ ·)

end Template

/-- What is put in place of a match. -/
abbrev Template := List Template.Part

namespace Template

/-- The template that a text writes, for a pattern with these groups. -/
def ofText (groups : Pattern.Groups) (source : Text) : Except PatternError Template :=
  if source.contains ('\\' : CodePoint) then
    (readAll groups (Token.ofText source) 0 .parts).mapError fun (fault, position) =>
      ⟨fault, position, source⟩
  else .ok [.literal source]

/-- What a part stands for in a match. -/
def Part.expand (m : Match) : Part → Text
  | .literal t => t
  | .group number => (m.group? number).getD []

/-- What a template stands for in a match. -/
def expand (t : Template) (m : Match) : Text :=
  List.flatMap (Part.expand m) t

end Template

end Renewal
