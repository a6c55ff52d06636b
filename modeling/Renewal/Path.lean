import Renewal.Text.Quoted

/-! # Paths

A path is a root and the names that lead from it. Empty names and single dots are left out when a
path is read; two slashes in front, and no more than two, are a root of their own.
-/

namespace Renewal

/-- Where a path starts. -/
inductive PathRoot where
  /-- At the current directory. -/
  | relative
  | slash
  | doubleSlash
deriving DecidableEq

/-- How a root is written. -/
def PathRoot.text : PathRoot → Text
  | .relative => ""
  | .slash => "/"
  | .doubleSlash => "//"

/-- A path. -/
structure Path where
  root : PathRoot
  /-- The names after the root. -/
  names : List Text
deriving DecidableEq

/-- Why a path cannot get another name. -/
inductive NameError where
  /-- It has no name to change. -/
  | noName (path : Path)
  /-- The text is not one name. -/
  | invalid (name : Text)
deriving DecidableEq

namespace Path

/-- The slash between names. -/
def separator : CodePoint := '/'

/-- The root that a text begins with. -/
def rootOf (t : Text) : PathRoot :=
  match (t.takeWhile (· == separator)).length with
  | 0 => .relative
  | 2 => .doubleSlash
  | _ => .slash

/-- The names in a text: what stands between slashes, but nothing empty and no single dots. -/
def namesOf (t : Text) : List Text :=
  (t.cutAt separator).filter fun name => !name.isEmpty && name != ("." : Text)

/-- The path that a text writes. -/
def ofText (t : Text) : Path :=
  ⟨rootOf t, namesOf t⟩

/-- How a path is written; the path without root and names is a dot. -/
def text (p : Path) : Text :=
  match p.root, p.names with
  | .relative, [] => "."
  | root, names => root.text ++ Text.joinWith "/" names

/-- The last name of a path; nothing if it has none. -/
def name (p : Path) : Text :=
  p.names.getLast?.getD []

/-- The path without its last name. -/
def parent (p : Path) : Path :=
  { p with names := p.names.dropLast }

/-- The path of an entry, told by a text, in the directory of a path. A text with a root stands for
itself. -/
def child (p : Path) (t : Text) : Path :=
  match rootOf t with
  | .relative => { p with names := p.names ++ namesOf t }
  | root => ⟨root, namesOf t⟩

/-- One more name on a way without detours: two dots take back the name before them, and are left
out right after a root. -/
def straightStep (root : PathRoot) (way : List Text) (name : Text) : List Text :=
  if name = (".." : Text) then
    match way.getLast?, root with
    | none, .relative => [name]
    | none, _ => []
    | some last, _ => if last = name then way ++ [name] else way.dropLast
  else way ++ [name]

/-- The path without detours, as far as its text tells them. -/
def straighten (p : Path) : Path :=
  { p with names := p.names.foldl (straightStep p.root) [] }

/-- The text of the path without detours that leads from the root to where a text leads from a
directory. -/
def absolute (directory t : Text) : Text :=
  (straighten ((ofText directory).child t)).text

/-- Whether a text can be the last name of a path. -/
def isName (t : Text) : Bool :=
  rootOf t == .relative && t.getLast? != some separator && (namesOf t).length == 1

/-- The path with another last name. -/
def withName (p : Path) (name : Text) : Except NameError Path :=
  if p.name.isEmpty then .error (.noName p)
  else if isName name then .ok { p with names := p.names.dropLast ++ [name] }
  else .error (.invalid name)

/-- The texts by which paths are ordered. -/
def sortKey (p : Path) : List Text :=
  match p.root with
  | .relative => p.names
  | root => root.text :: p.names

/-- Whether a list of texts comes before or equals another. -/
def keyLe : List Text → List Text → Bool
  | [], _ => true
  | _ :: _, [] => false
  | s :: ss, t :: ts => if s = t then keyLe ss ts else s.le t

/-- Whether a path comes before or equals another. -/
def le (p q : Path) : Bool :=
  keyLe p.sortKey q.sortKey

end Path

/-- What is said of a path that cannot get another name. -/
def NameError.message : NameError → Text
  | .noName p => .concat ["PosixPath(", p.text.quoted, ") has an empty name"]
  | .invalid name => .concat ["Invalid name ", name.quoted]

end Renewal
