import Renewal.Backup.Name
import Renewal.FileSystem.Operation

/-! # Saving a file before it is changed

A file gets a new text in two steps, each of which puts a finished temporary file in place at once:
first the saved copy, then the file itself. So the file is never without a saved copy once it has
changed, and never holds part of a text. A saved copy that is seen there is never replaced.
-/

namespace Renewal.Backup

/-- The path of the temporary file beside a file, with letters drawn for it. -/
def temporaryPath (directory : Text) (target : Path) (letters : Text) : Text :=
  let around := Path.absolute directory target.parent.text
  let slash : Text := if around.getLast? = some Path.separator then "" else "/"
  .concat [around, slash, ".", target.name, ".", letters, ".tmp"]

/-- Lets `fill` write a temporary file and puts it in place of a file; the temporary file does not
stay behind. -/
def replaceAtOnce (target : Path) (fill : Text → Action Unit) : Action Unit := do
  let directory := Location.text (← get).directory
  let temporary ← FileSystem.createTemporary (temporaryPath directory target)
  try
    fill temporary
    FileSystem.replace temporary target.text
  catch failure =>
    FileSystem.remove temporary
    throw failure

/-- Tells a file error in another way. -/
def explain {α : Type} (wrap : FileError → Failure) (action : Action α) : Action α :=
  tryCatch action fun
    | .file e => throw (wrap e)
    | other => throw other

/-- Writes a text to a file in an encoding, and gives it the mode of another file. What would close
the text is left out. -/
def fillWith (text encoding : Text) (like target : Text) : Action Unit := do
  FileSystem.guardFault (.openWrite target)
  FileSystem.checkEncodingName encoding
  match (← get).codec? encoding with
  | none => throw (.unknownEncoding encoding)
  | some codec =>
    let encoded ← Action.ofExcept .codec (codec.encode text)
    FileSystem.write target encoded.body
    FileSystem.copyMode like target

/-- Saves a copy of a file, then gives the file a new text; gives the path of the copy. -/
def save (path : Path) (text suffix encoding : Text) : Action Path := do
  let backup ← Action.ofExcept .name (pathFor path suffix)
  let failed (e : SaveError) : Failure := .save path.text e
  if ← FileSystem.isTaken backup.text then throw (failed (.taken backup.text))
  explain (fun e => failed (.notCopied backup.text e)) <|
    replaceAtOnce backup (FileSystem.copy path.text)
  Action.log .debug ["Backed up ", path.text, " to ", backup.text]
  explain (fun e => failed (.notWritten path.text backup.text e)) <|
    replaceAtOnce path (fillWith text encoding backup.text)
  return backup

end Renewal.Backup
