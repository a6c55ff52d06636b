import Renewal.FileSystem.Errno
import Renewal.Json.Reader
import Renewal.Path
import Renewal.ShellWords
import Renewal.Text.Codec

/-! # Failures

Everything that can stop an action, told by its cause. `Failure.message` is what is said of it and
`Failure.kind` the name of its kind.
-/

namespace Renewal

/-- A file operation that has failed. -/
inductive FileError where
  /-- A system error, with the path it is about and the path something was to be moved to. -/
  | system (errno : Errno) (path target : Option Text)
  /-- A named pipe cannot be copied. -/
  | namedPipe (path : Text)
  /-- A file cannot be copied onto itself. -/
  | sameFile (source target : Text)
  /-- All names drawn for a temporary file are in use. -/
  | noFreeName
deriving DecidableEq

namespace FileError

/-- What is said of a file operation that has failed. -/
def message : FileError → Text
  | .system errno path target =>
    let subject : Text := match path, target with
      | some p, some q => .concat [": ", p.quoted, " -> ", q.quoted]
      | some p, none => .concat [": ", p.quoted]
      | none, _ => ""
    .concat ["[Errno ", .ofNat errno.code, "] ", errno.text, subject]
  | .namedPipe path => .concat ["`", path, "` is a named pipe"]
  | .sameFile source target =>
    .concat ["PosixPath(", source.quoted, ") and PosixPath(", target.quoted,
      ") are the same file"]
  | .noFreeName => .concat ["[Errno ", .ofNat Errno.alreadyExists.code,
      "] No usable temporary file name found"]

/-- The kind of a system error. -/
def kinds : List (Nat × String) :=
  [(1, "PermissionError"), (2, "FileNotFoundError"), (3, "ProcessLookupError"),
    (4, "InterruptedError"), (10, "ChildProcessError"), (11, "BlockingIOError"),
    (13, "PermissionError"), (17, "FileExistsError"), (20, "NotADirectoryError"),
    (21, "IsADirectoryError"), (32, "BrokenPipeError"), (103, "ConnectionAbortedError"),
    (104, "ConnectionResetError"), (108, "BrokenPipeError"), (110, "TimeoutError"),
    (111, "ConnectionRefusedError"), (114, "BlockingIOError"), (115, "BlockingIOError")]

/-- The name of the kind of a file error. -/
def kind : FileError → Text
  | .system errno _ _ => ((kinds.lookup errno.code).getD "OSError" : String)
  | .namedPipe _ => "SpecialFileError"
  | .sameFile _ _ => "SameFileError"
  | .noFreeName => "FileExistsError"

end FileError

/-- Why a program did not run to its end. -/
inductive LaunchError where
  | system (e : FileError)
  /-- It took longer than allowed. -/
  | expired (command : List Text) (seconds : Text)
deriving DecidableEq

/-- What is said of a program that did not run to its end. -/
def LaunchError.message : LaunchError → Text
  | .system e => e.message
  | .expired command seconds =>
    .concat ["Command '", Text.quotedList command, "' timed out after ", seconds, " seconds"]

/-- Why files cannot be enumerated. -/
inductive EnumerationError where
  | notDirectory (root : Text)
  | cannotList (path : Text) (errno : Errno)
  | cannotRun (command : List Text) (e : LaunchError)
  /-- The program that enumerates files has failed. -/
  | exited (command : List Text) (status : Int) (errors : Text)
deriving DecidableEq

/-- What is said if files cannot be enumerated. -/
def EnumerationError.message : EnumerationError → Text
  | .notDirectory root => .concat ["Root path is not a directory: ", root]
  | .cannotList path errno => .concat ["Cannot list ", path, ": ", errno.text]
  | .cannotRun command e => .concat ["Could not run ", ShellWords.join command, ": ", e.message]
  | .exited command status errors =>
    .concat [ShellWords.join command, " exited with status ", .ofInt status, ": ", errors]

/-- Why a file cannot be saved. -/
inductive SaveError where
  /-- There is a saved copy already. -/
  | taken (backup : Text)
  /-- The copy cannot be made. -/
  | notCopied (backup : Text) (e : FileError)
  /-- The copy is there, but the new text cannot be written. -/
  | notWritten (path backup : Text) (e : FileError)
deriving DecidableEq

/-- What is said if a file cannot be saved. -/
def SaveError.message : SaveError → Text
  | .taken backup =>
    .concat ["Backup ", backup, " already exists; run with -reset first or remove it"]
  | .notCopied backup e => .concat ["Could not create backup ", backup, ": ", e.message]
  | .notWritten path backup e =>
    .concat ["Could not write rewritten ", path, " (original kept in ", backup, "): ", e.message]

/-- Why two files cannot be compared. -/
inductive DiffError where
  | cannotRead (path : Text) (e : FileError)
  | cannotRun (command : List Text) (e : LaunchError)
  /-- The program that compares files has failed, after some output. -/
  | exited (command : List Text) (status : Int) (output : Text)
  /-- A comparison that tells itself why it has failed. -/
  | reported (message output : Text)
deriving DecidableEq

namespace DiffError

/-- What is said if two files cannot be compared. -/
def message : DiffError → Text
  | .cannotRead path e => .concat ["Cannot read ", path, ": ", e.message]
  | .cannotRun command e => .concat ["Could not run ", ShellWords.join command, ": ", e.message]
  | .exited command status _ =>
    .concat [ShellWords.join command, " exited with status ", .ofInt status]
  | .reported message _ => message

/-- What was printed before a comparison failed. -/
def output : DiffError → Text
  | .exited _ _ output | .reported _ output => output
  | .cannotRead _ _ | .cannotRun _ _ => []

end DiffError

/-- Why an action stops. -/
inductive Failure where
  | file (e : FileError)
  /-- A path with a null character. -/
  | nullCharacter
  | pattern (e : PatternError)
  | name (e : NameError)
  | words (e : ShellWords.WordsError)
  | unknownEncoding (name : Text)
  /-- An encoding's name with a null character. -/
  | nullInEncoding
  | encode (e : EncodeError)
  | decode (e : DecodeError)
  | codec (e : CodecError)
  /-- A line that cannot be printed. -/
  | print (e : EncodeError)
  | enumeration (e : EnumerationError)
  /-- The file at a path cannot be saved. -/
  | save (path : Text) (e : SaveError)
  | diff (e : DiffError)
  | unknownWalker (name : Text)
  | unknownDiffer (name : Text)
  | json (e : Json.ReadError)
deriving DecidableEq

namespace Failure

/-- What is said of a failure. -/
def message : Failure → Text
  | .file e => e.message
  | .nullCharacter => "embedded null byte"
  | .pattern e => e.message
  | .name e => e.message
  | .words e => e.message
  | .unknownEncoding spelling => .concat ["unknown encoding: ", spelling]
  | .nullInEncoding => "embedded null character"
  | .encode e => e.message
  | .decode e => e.message
  | .codec e => e.message
  | .print e => .concat [e.message,
      "\n*** You may need to add PYTHONIOENCODING=utf-8 to your environment ***"]
  | .enumeration e => e.message
  | .save _ e => e.message
  | .diff e => e.message
  | .unknownWalker tool =>
    .concat ["Unknown walker '", tool, "' (expected 'native' or 'find')"]
  | .unknownDiffer tool =>
    .concat ["Unknown differ '", tool, "' (expected 'native' or 'external')"]
  | .json e => e.message

/-- The name of the kind of a failure. -/
def kind : Failure → Text
  | .file e => e.kind
  | .nullCharacter | .nullInEncoding | .name _ | .words _ => "ValueError"
  | .unknownWalker _ | .unknownDiffer _ => "ValueError"
  | .pattern e =>
    match e.fault with
    | .unknownName _ => "IndexError"
    | .repetitionTooLarge => "OverflowError"
    | _ => "error"
  | .unknownEncoding _ => "LookupError"
  | .encode _ | .print _ => "UnicodeEncodeError"
  | .decode _ => "UnicodeDecodeError"
  | .codec e => e.kind
  | .enumeration _ => "EnumerationError"
  | .save _ _ => "BackupWriteError"
  | .diff _ => "DiffError"
  | .json e =>
    match e with
    | .malformed _ _ _ => "JSONDecodeError"
    | .integer _ => "ValueError"
    | .tooDeep _ => "RecursionError"

/-- Failures that the program itself foresees; others are logged with their kind. -/
def isForeseen : Failure → Bool
  | .enumeration _ | .save _ _ | .diff _ => true
  | _ => false

end Failure

end Renewal
