import Renewal.FileSystem.Errno
import Renewal.FileSystem.Tree

/-! # Finding the entry of a path

A path is followed from a directory name by name. A dot stays, two dots go up, and a link is
followed on the way; the link at the end is followed if that is wanted. Names and paths have a
greatest length, and only so many links are followed.
-/

namespace Renewal

/-- Where a path leads. -/
structure Found where
  location : Location
  /-- What is there; nothing if only the directory around it exists. -/
  entry : Option Entry
deriving DecidableEq

/-- The limits of path resolution. -/
structure PathLimits where
  /-- The most links that are followed. -/
  links : Nat := 40
  /-- The longest name. -/
  name : Nat := 255
  /-- The longest path. -/
  path : Nat := 4095

namespace Tree

/-- The byte between names. -/
def slash : UInt8 := 0x2F

/-- The name of the directory itself. -/
def dot : EntryName := [0x2E]

/-- The name of the directory above. -/
def dotDot : EntryName := [0x2E, 0x2E]

/-- Bytes cut at each slash. -/
def cutAtSlash : Bytes → List EntryName
  | [] => [[]]
  | b :: rest =>
    if b = slash then [] :: cutAtSlash rest
    else
      match cutAtSlash rest with
      | [] => [[b]]
      | first :: others => (b :: first) :: others

/-- The names on a path. A slash at the end asks for a directory, like a dot after it. -/
def pathNames (path : Bytes) : List EntryName :=
  let names := (cutAtSlash path).filter fun name => !name.isEmpty
  if path.getLast? = some slash then names ++ [dot] else names

/-- Where a path starts: at the root after a slash, else at a directory. -/
def pathStart (directory : Location) (path : Bytes) : Location :=
  if path.head? = some slash then [] else directory

/-- Follows names from a directory; `expand` goes on from a directory after a link. -/
def followNames (t : Tree) (longestName : Nat) (followLast : Bool)
    (expand : Location → List EntryName → Except Errno Found) :
    Location → List EntryName → Except Errno Found
  | here, [] => .ok ⟨here, t.get? here⟩
  | here, name :: rest =>
    if !t.isDirectory here then .error .notDirectory
    else if longestName < name.length then .error .nameTooLong
    else if name = dot then followNames t longestName followLast expand here rest
    else if name = dotDot then followNames t longestName followLast expand here.dropLast rest
    else
      let there := here ++ [name]
      match t.get? there with
      | none => if rest.isEmpty then .ok ⟨there, none⟩ else .error .notFound
      | some (.link target) =>
        if rest.isEmpty && !followLast then .ok ⟨there, some (.link target)⟩
        else expand (pathStart here target) (pathNames target ++ rest)
      | some _ => followNames t longestName followLast expand there rest

/-- Follows names from a directory through at most so many links. -/
def followLinks (t : Tree) (longestName : Nat) (followLast : Bool) :
    (links : Nat) → Location → List EntryName → Except Errno Found
  | 0 => t.followNames longestName followLast fun _ _ => .error .tooManyLinks
  | links + 1 =>
    t.followNames longestName followLast (t.followLinks longestName followLast links)

/-- Where a path leads from a directory. -/
def resolve (t : Tree) (limits : PathLimits) (directory : Location) (path : Bytes)
    (followLast : Bool) : Except Errno Found :=
  if path.isEmpty then .error .notFound
  else if limits.path < path.length then .error .nameTooLong
  else
    t.followLinks limits.name followLast limits.links (pathStart directory path) (pathNames path)

end Tree

end Renewal
