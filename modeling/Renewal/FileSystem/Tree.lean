import Renewal.Text.Encoding

/-! # File trees

A tree says what stands at which location. Locations are lists of names from the root down; the
root itself is always a directory. Names and the targets of links are bytes.
-/

namespace Renewal

/-- The name of an entry. -/
abbrev EntryName := Bytes

/-- Where an entry is: the names that lead to it from the root. -/
abbrev Location := List EntryName

/-- What stands at a location. -/
inductive Entry where
  | directory
  | file (data : Bytes) (mode : Nat)
  /-- A symbolic link. -/
  | link (target : Bytes)
  /-- A named pipe. -/
  | pipe
deriving DecidableEq

/-- A file tree. -/
structure Tree where
  entries : List (Location × Entry) := []

namespace Tree

/-- The entry at a location. -/
def get? (t : Tree) (place : Location) : Option Entry :=
  if place.isEmpty then some .directory else t.entries.lookup place

/-- The tree without the entry at a location. -/
def erase (t : Tree) (place : Location) : Tree :=
  ⟨t.entries.filter fun (l, _) => l != place⟩

/-- The tree with an entry put at a location. -/
def set (t : Tree) (place : Location) (e : Entry) : Tree :=
  ⟨(place, e) :: (t.erase place).entries⟩

/-- Whether the entry at a location is a directory. -/
def isDirectory (t : Tree) (place : Location) : Bool :=
  t.get? place == some .directory

/-- Whether a list of bytes comes before or equals another. -/
def nameLe : EntryName → EntryName → Bool
  | [], _ => true
  | _ :: _, [] => false
  | a :: s, b :: t => a < b || (a == b && nameLe s t)

/-- The names in a directory. -/
def namesIn (t : Tree) (place : Location) : List EntryName :=
  t.entries.filterMap fun (l, _) => if l.dropLast = place then l.getLast? else none

/-- The tree after what is at one location, and all below it, has moved to another. -/
def move (t : Tree) (source target : Location) : Tree :=
  let kept := t.entries.filter fun (l, _) => !source.isPrefixOf l && !target.isPrefixOf l
  let moved := t.entries.filterMap fun (l, e) =>
    if source.isPrefixOf l then some (target ++ l.drop source.length, e) else none
  ⟨moved ++ kept⟩

end Tree

/-- In which order the names in directories are listed. -/
structure Listing where
  order : Location → List EntryName → List EntryName
  /-- No name is left out or added. -/
  perm : ∀ place names, (order place names).Perm names

/-- Names are listed in the order of their bytes. -/
def Listing.byBytes : Listing where
  order _ names := names.mergeSort Tree.nameLe
  perm _ names := List.mergeSort_perm names _

end Renewal
