import Renewal.Path

/-! # Names of saved copies

The copy of a file that is saved before it is changed stands beside it under the same name with a
suffix.
-/

namespace Renewal.Backup

/-- The suffix of saved copies unless another is given. -/
def defaultSuffix : Text := "-original"

/-- The path of the saved copy of a file. -/
def pathFor (live : Path) (suffix : Text) : Except NameError Path :=
  live.withName (live.name ++ suffix)

/-- What stands before an ending: a name of at least one code point without newlines. -/
def stem? (name ending : Text) : Option Text :=
  let stem := name.take (name.length - ending.length)
  if name.endsWith ending ∧ !stem.isEmpty ∧ !stem.contains ('\n' : CodePoint) then some stem
  else none

/-- The name of the file that a name is the saved copy of; a newline at the end does not count. -/
def liveName? (name suffix : Text) : Option Text :=
  stem? name suffix <|> stem? name (suffix ++ [('\n' : CodePoint)])

/-- The path of the file that a path is the saved copy of, if it is one. -/
def livePath? (backup : Path) (suffix : Text) : Except NameError (Option Path) :=
  match liveName? backup.name suffix with
  | none => .ok none
  | some name => (backup.withName name).map some

end Renewal.Backup
