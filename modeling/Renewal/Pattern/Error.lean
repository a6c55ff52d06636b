import Renewal.Text.Quoted

/-! # Faults of patterns and templates

A pattern or a template that cannot be read has a fault at a position. The message gives the
position, and the line and column as well where the source has several lines.
-/

namespace Renewal

/-- What is wrong with a pattern or a template. -/
inductive PatternFault where
  /-- A backslash ends the source. -/
  | danglingBackslash
  | badEscape (escape : Text)
  /-- A parenthesis is never closed. -/
  | unterminatedGroup
  /-- A parenthesis was never opened. -/
  | unbalancedParenthesis
  | unterminatedClass
  | badRange (first last : Text)
  | nothingToRepeat
  | multipleRepeat
  | unexpectedEnd
  | unknownExtension (mark : Text)
  /-- An extension that has a meaning, but not one that is known here. -/
  | unsupported (mark : Text)
  | invalidGroup (number : Nat)
  | octalTooLarge (escape : Text)
  /-- An escape has too few digits. -/
  | incompleteEscape (escape : Text)
  /-- No brace opens a character's name. -/
  | missingBrace
  | missingCharacterName
  | undefinedCharacter (name : Text)
  /-- The most rounds are fewer than the least. -/
  | boundsInDisorder
  | repetitionTooLarge
  /-- A group refers to itself. -/
  | referenceToOpen
  /-- No group before has this name. -/
  | unknownGroup (name : Text)
  /-- Two groups have the same name. -/
  | nameTwice (name : Text) (number earlier : Nat)
  | unterminatedComment
  /-- Flags end without a dash, a colon or a parenthesis. -/
  | unfinishedFlags
  | unknownFlag
  | missingFlag
  /-- No colon follows the flags that are turned off. -/
  | missingColon
  /-- A flag that only texts of bytes can have. -/
  | localeFlag
  /-- Flags that cannot be turned on together. -/
  | rivalFlags
  /-- A flag for the whole pattern is turned on for a group. -/
  | globalFlagOn
  /-- A flag for the whole pattern is turned off for a group. -/
  | globalFlagOff
  | flagOnAndOff
  /-- A flag is turned off that cannot be. -/
  | typeFlagOff
  /-- Flags for the whole pattern do not stand in front. -/
  | flagsNotInFront
  /-- No angle bracket opens a group's name. -/
  | missingOpen
  | missingName
  | unterminatedName (closing : CodePoint)
  | badName (name : Text)
  /-- No group has this name. -/
  | unknownName (name : Text)
deriving DecidableEq

/-- A fault and where it is. -/
abbrev Located := PatternFault × Nat

/-- A pattern or a template that cannot be read. -/
structure PatternError where
  fault : PatternFault
  /-- Where the fault is. -/
  position : Nat
  /-- The whole pattern or template. -/
  source : Text
deriving DecidableEq

/-- What a fault is called. -/
def PatternFault.describe : PatternFault → Text
  | .danglingBackslash => "bad escape (end of pattern)"
  | .badEscape escape => .concat ["bad escape ", escape]
  | .unterminatedGroup => "missing ), unterminated subpattern"
  | .unbalancedParenthesis => "unbalanced parenthesis"
  | .unterminatedClass => "unterminated character set"
  | .badRange first last => .concat ["bad character range ", first, "-", last]
  | .nothingToRepeat => "nothing to repeat"
  | .multipleRepeat => "multiple repeat"
  | .unexpectedEnd => "unexpected end of pattern"
  | .unknownExtension mark => .concat ["unknown extension ?", mark]
  | .unsupported mark => .concat ["unsupported extension ?", mark]
  | .invalidGroup number => .concat ["invalid group reference ", .ofNat number]
  | .octalTooLarge escape => .concat ["octal escape value ", escape, " outside of range 0-0o377"]
  | .incompleteEscape escape => .concat ["incomplete escape ", escape]
  | .missingBrace => "missing \x7b"
  | .missingCharacterName => "missing character name"
  | .undefinedCharacter name => .concat ["undefined character name ", name.quoted]
  | .boundsInDisorder => "min repeat greater than max repeat"
  | .repetitionTooLarge => "the repetition number is too large"
  | .referenceToOpen => "cannot refer to an open group"
  | .unknownGroup name => .concat ["unknown group name ", name.quoted]
  | .nameTwice name number earlier =>
    .concat ["redefinition of group name ", name.quoted, " as group ", .ofNat number,
      "; was group ", .ofNat earlier]
  | .unterminatedComment => "missing ), unterminated comment"
  | .unfinishedFlags => "missing -, : or )"
  | .unknownFlag => "unknown flag"
  | .missingFlag => "missing flag"
  | .missingColon => "missing :"
  | .localeFlag => "bad inline flags: cannot use 'L' flag with a str pattern"
  | .rivalFlags => "bad inline flags: flags 'a', 'u' and 'L' are incompatible"
  | .globalFlagOn => "bad inline flags: cannot turn on global flag"
  | .globalFlagOff => "bad inline flags: cannot turn off global flag"
  | .flagOnAndOff => "bad inline flags: flag turned on and off"
  | .typeFlagOff => "bad inline flags: cannot turn off flags 'a', 'u' and 'L'"
  | .flagsNotInFront => "global flags not at the start of the expression"
  | .missingOpen => "missing <"
  | .missingName => "missing group name"
  | .unterminatedName closing => .concat ["missing ", [closing], ", unterminated name"]
  | .badName name => .concat ["bad character in group name ", name.quoted]
  | .unknownName name => .concat ["unknown group name ", name.quoted]

/-- A position of a text as line and column, both from one. -/
def Text.lineAndColumn (t : Text) (position : Nat) : Nat × Nat :=
  let before := t.take position
  let newline : CodePoint := '\n'
  (before.count newline + 1, (before.reverse.takeWhile (· != newline)).length + 1)

/-- What is said of a pattern or a template that cannot be read. A name in a template that no group
has and a number of rounds that is too large are told without their positions. -/
def PatternError.message (e : PatternError) : Text :=
  match e.fault with
  | .unknownName _ | .repetitionTooLarge => e.fault.describe
  | _ =>
    let place : Text :=
      if e.source.contains ('\n' : CodePoint) then
        let (line, column) := e.source.lineAndColumn e.position
        .concat [" (line ", .ofNat line, ", column ", .ofNat column, ")"]
      else ""
    .concat [e.fault.describe, " at position ", .ofNat e.position, place]

end Renewal
