import Renewal.World

/-! # File operations

What actions do with files: look entries up, read, list, copy, move and write them. Each operation
that can be made to fail asks for a fault first. A failure names the paths it is about, unless it
was a fault that was asked for.
-/

namespace Renewal

/-- The text of a location. -/
def Location.text (l : Location) : Text :=
  .concat ["/", .joinWith "/" (l.map Utf8.decode)]

/-- Where a path leads in a world. -/
def World.find (w : World) (path : Text) (followLast : Bool := true) : Except Errno Found :=
  w.tree.resolve w.limits w.directory (Encoding.nameBytes path) followLast

namespace FileSystem

/-- The failure of an operation on a path. -/
def failed (path : Text) (errno : Errno) : Failure :=
  .file (.system errno (some path) none)

/-- The failure that a fault makes. -/
def faulted (errno : Errno) : Failure :=
  .file (.system errno none none)

/-- Fails if an operation is made to fail. -/
def guardFault (call : FileCall) : Action Unit := do
  match ← Action.fault? call with
  | some errno => throw (faulted errno)
  | none => pure ()

/-- Whether a text can be the path of something. -/
def isPath (path : Text) : Bool :=
  path.all Encoding.isNameable

/-- The failure of a text that is no path. -/
def notPath (path : Text) : Failure :=
  match Encoding.utf8.encode path with
  | .error e => .encode e
  | .ok _ => .nullCharacter

/-- Fails if a text is no path. -/
def guardPath (path : Text) : Action Unit :=
  if isPath path then pure () else throw (notPath path)

/-- Errors that only say that there is no such entry. -/
def meansAbsent (errno : Errno) : Bool :=
  [Errno.notFound, .notDirectory, .badDescriptor, .tooManyLinks].contains errno

/-- The entry that a path leads to, or none. -/
def entry? (path : Text) : Action (Option Entry) := do
  if !isPath path then return none
  match (← get).find path with
  | .ok found => return found.entry
  | .error errno => if meansAbsent errno then return none else throw (failed path errno)

/-- Whether a path leads to a directory. -/
def isDirectory (path : Text) : Action Bool := do
  return (← entry? path) == some .directory

/-- Whether a path leads to a regular file. -/
def isFile (path : Text) : Action Bool := do
  match ← entry? path with
  | some (.file _ _) => return true
  | _ => return false

/-- Whether there is an entry at a path; a link at its end counts itself. Whatever prevents an
answer means no. -/
def isTaken (path : Text) : Action Bool := do
  if !isPath path then return false
  match ← Action.fault? (.look path) with
  | some _ => return false
  | none =>
    match (← get).find path false with
    | .ok found => return found.entry.isSome
    | .error _ => return false

/-- The place of an entry that has to exist. -/
def locate (path : Text) : Action (Location × Entry) := do
  guardPath path
  match (← get).find path with
  | .error errno => throw (failed path errno)
  | .ok ⟨_, none⟩ => throw (failed path .notFound)
  | .ok ⟨location, some e⟩ => return (location, e)

/-- The content and the mode of the file that a path leads to. -/
def fileAt (path : Text) : Action (Bytes × Nat) := do
  match ← locate path with
  | (_, .file data mode) => return (data, mode)
  | (_, .directory) => throw (failed path .isDirectory)
  | (_, _) => return ([], 0o644)

/-- Reads a file. -/
def read (path : Text) : Action Bytes := do
  guardFault (.openRead path)
  return (← fileAt path).1

/-- Refuses names of encodings that cannot be passed on. -/
def checkEncodingName (encoding : Text) : Action Unit := do
  Action.ofExcept .encode (Encoding.checkScalars encoding)
  if encoding.contains (.ofNat 0) then throw .nullInEncoding

/-- Reads a file as text. An encoding that is not known is told after a file that cannot be
opened. -/
def readText (path encoding : Text) : Action Text := do
  guardFault (.openRead path)
  checkEncodingName encoding
  let bytes := (← fileAt path).1
  match (← get).codec? encoding with
  | some codec => Action.ofExcept .codec (codec.decode bytes)
  | none => throw (.unknownEncoding encoding)

/-- The names in a directory, or the error of listing it. -/
def list (path : Text) : Action (Except Errno (List EntryName)) := do
  match ← Action.fault? (.list path) with
  | some errno => return .error errno
  | none =>
    let w ← get
    match w.find path with
    | .error errno => return .error errno
    | .ok found =>
      match found.entry with
      | some .directory => return .ok (w.namesIn found.location)
      | some _ => return .error .notDirectory
      | none => return .error .notFound

/-- Puts an entry at a location. -/
def put (location : Location) (e : Entry) : Action Unit :=
  modify fun w => w.change (w.tree.set location e)

/-- Makes an empty file that only the owner can use, at a path where there is nothing yet; says
whether there was nothing. -/
def create (path : Text) : Action Bool := do
  guardPath path
  match (← get).find path false with
  | .error errno => throw (failed path errno)
  | .ok ⟨_, some _⟩ => return false
  | .ok ⟨location, none⟩ =>
    match ← Action.shortage? with
    | some shortage => throw (failed path shortage.errno)
    | none =>
      put location (.file [] 0o600)
      return true

/-- How many names are tried for a temporary file. -/
def greatestAttempts : Nat := 238328

/-- Makes a temporary file under the first of the names that is free, and gives its path; `path`
makes a path of the letters drawn. -/
def createFirst (path : Text → Text) (draws : Nat → Text) (attempt : Nat) :
    (left : Nat) → Action Text
  | 0 => throw (.file .noFreeName)
  | left + 1 => do
    if ← create (path (draws attempt)) then return path (draws attempt)
    else createFirst path draws (attempt + 1) left

/-- Makes a temporary file. -/
def createTemporary (path : Text → Text) : Action Text := do
  let w ← get
  createFirst path (w.draws w.clock) 0 greatestAttempts

/-- Removes the entry at a path, if there is one. -/
def remove (path : Text) : Action Unit := do
  match ← Action.fault? (.remove path) with
  | some errno => if errno = .notFound then pure () else throw (failed path errno)
  | none =>
    modify fun w =>
      match w.find path false with
      | .ok ⟨location, some _⟩ => w.change (w.tree.erase location)
      | _ => w

/-- Data cut into pieces of given sizes; what is left over is the last piece. -/
def cutInto : List Nat → Bytes → List Bytes
  | [], data => [data]
  | size :: sizes, data => data.take size :: cutInto sizes (data.drop size)

/-- Adds pieces to what has been written to a file so far. -/
def append (location : Location) (mode : Nat) : (written : Bytes) → List Bytes → Action Unit
  | _, [] => pure ()
  | written, piece :: rest => do
    put location (.file (written ++ piece) mode)
    append location mode (written ++ piece) rest

/-- Empties a file and writes data to it piece by piece. -/
def overwrite (location : Location) (mode : Nat) (data : Bytes) : Action Unit := do
  let w ← get
  put location (.file [] mode)
  append location mode [] (cutInto (w.pieces w.clock) data)

/-- Replaces the content of the file that a path leads to; only the front of it where room is
missing. -/
def write (path : Text) (data : Bytes) : Action Unit := do
  match ← locate path with
  | (location, .file _ mode) =>
    match ← Action.shortage? with
    | none => overwrite location mode data
    | some shortage =>
      overwrite location mode (data.take shortage.room)
      throw (faulted shortage.errno)
  | (_, _) => throw (failed path .isDirectory)

/-- Gives the file that a path leads to a mode. -/
def setMode (path : Text) (mode : Nat) : Action Unit := do
  match ← locate path with
  | (location, .file data _) => put location (.file data mode)
  | (_, _) => pure ()

/-- Whether two paths lead to the same entry. -/
def leadToSame (w : World) (path other : Text) : Bool :=
  match w.find path, w.find other with
  | .ok ⟨location, some _⟩, .ok ⟨place, some _⟩ => location = place
  | _, _ => false

/-- Copies content and mode of a file to another one. -/
def copy (source target : Text) : Action Unit := do
  guardFault .copy
  let w ← get
  if leadToSame w source target then throw (.file (.sameFile source target))
  if (w.find source).toOption.bind (·.entry) = some .pipe then throw (.file (.namedPipe source))
  let (data, mode) ← fileAt source
  write target data
  setMode target mode

/-- Copies the mode of a file to another one. -/
def copyMode (source target : Text) : Action Unit := do
  guardFault .copyMode
  match ← locate source with
  | (_, .file _ mode) => setMode target mode
  | (_, _) => pure ()

/-- Where the last name of a path stands: the location of the directory around it, and the name. A
path that ends with dots or has no name at all stands for a place that is in use. -/
def lastPlace (w : World) (path : Text) : Except Errno Location :=
  let bytes := Encoding.nameBytes path
  let names := Tree.pathNames bytes
  if bytes.isEmpty then .error .notFound
  else if w.limits.path < bytes.length then .error .nameTooLong
  else
    match w.tree.followLinks w.limits.name true w.limits.links
        (Tree.pathStart w.directory bytes) names.dropLast with
    | .error errno => .error errno
    | .ok ⟨_, none⟩ => .error .notFound
    | .ok ⟨around, some .directory⟩ =>
      match names.getLast? with
      | none => .error .busy
      | some last =>
        if last = Tree.dot ∨ last = Tree.dotDot then .error .busy
        else if w.limits.name < last.length then .error .nameTooLong
        else .ok (around ++ [last])
    | .ok _ => .error .notDirectory

/-- Whether an entry may take the place of another. -/
def mayReplace (w : World) (source target : Location) : Except Errno Unit :=
  match w.tree.get? source with
  | none => .error .notFound
  | some e =>
    if source = target then .ok ()
    else if source.isPrefixOf target then .error .invalid
    else if target.isPrefixOf source then .error .notEmpty
    else
      match e, w.tree.get? target with
      | _, none => .ok ()
      | .directory, some .directory =>
        if (w.tree.namesIn target).isEmpty then .ok () else .error .notEmpty
      | .directory, some _ => .error .notDirectory
      | _, some .directory => .error .isDirectory
      | _, some _ => .ok ()

/-- The tree after the entry at one path has taken the place of the one at another. -/
def replaced (w : World) (source target : Text) : Except Errno Tree := do
  let start ← lastPlace w source
  let goal ← lastPlace w target
  mayReplace w start goal
  return if start = goal then w.tree else w.tree.move start goal

/-- Moves the entry at one path to another, in place of what is there, in one step. -/
def replace (source target : Text) : Action Unit := do
  guardFault (.replace target)
  guardPath source
  guardPath target
  match replaced (← get) source target with
  | .error errno => throw (.file (.system errno (some source) (some target)))
  | .ok tree => modify fun w => w.change tree

end FileSystem

end Renewal
