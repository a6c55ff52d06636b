import Renewal.Diff.Matching
import Renewal.Text.Blank

/-! # Unified diffs

Edits with some unchanged lines around them make hunks; a hunk is printed under a header with its
ranges. Lines can be compared without their white space, while the hunks show them as they are.
-/

namespace Renewal.Diff

/-- A part of a hunk: what happens to a range of the old lines and to a range of the new ones. With
a negative context a range may end before it starts. -/
structure Part where
  kind : EditKind
  leftStart : Int
  leftStop : Int
  rightStart : Int
  rightStop : Int
deriving DecidableEq, Repr

/-- The part of a hunk that shows a whole edit. -/
def Edit.part (e : Edit) : Part :=
  ⟨e.kind, e.leftStart, e.leftStop, e.rightStart, e.rightStop⟩

/-- The parts of one hunk. -/
abbrev Hunk := List Part

/-- The last lines of an unchanged range. -/
def Part.keepEnd (context : Int) (p : Part) : Part :=
  { p with leftStart := max p.leftStart (p.leftStop - context)
           rightStart := max p.rightStart (p.rightStop - context) }

/-- The first lines of an unchanged range. -/
def Part.keepFront (context : Int) (p : Part) : Part :=
  { p with leftStop := min p.leftStop (p.leftStart + context)
           rightStop := min p.rightStop (p.rightStart + context) }

/-- An unchanged range in front keeps only its last lines. -/
def trimFront (context : Int) : List Part → List Part
  | [] => []
  | p :: rest => (if p.kind = .equal then p.keepEnd context else p) :: rest

/-- An unchanged range at the end keeps only its first lines. -/
def trimEnd (context : Int) : List Part → List Part
  | [] => []
  | [p] => [if p.kind = .equal then p.keepFront context else p]
  | p :: rest => p :: trimEnd context rest

/-- Divides parts at long unchanged ranges; `current` are the parts of the hunk so far. A last hunk
without a change is left out. -/
def divide (context : Int) : (current : Hunk) → List Part → List Hunk
  | current, [] => if current.any (·.kind != .equal) || 1 < current.length then [current] else []
  | current, p :: rest =>
    if p.kind = .equal ∧ 2 * context < p.leftStop - p.leftStart then
      (current ++ [p.keepFront context]) :: divide context [p.keepEnd context] rest
    else divide context (current ++ [p]) rest

/-- The parts that hunks are made of. Where there is nothing to compare, one unchanged line is
supposed. -/
def parts (es : List Edit) : List Part :=
  if es.isEmpty then [⟨.equal, 0, 1, 0, 1⟩] else es.map Edit.part

/-- The hunks of edits. -/
def hunks (context : Int) (es : List Edit) : List Hunk :=
  divide context [] (trimEnd context (trimFront context (parts es)))

/-- A range of lines in the header of a hunk: the number of its first line and how many lines there
are. A range without lines is told by the line before it. -/
def rangeText (start stop : Int) : Text :=
  let length := stop - start
  if length = 1 then .ofInt (start + 1)
  else if length = 0 then .concat [.ofInt start, ",", .ofInt length]
  else .concat [.ofInt (start + 1), ",", .ofInt length]

/-- The header of a hunk. -/
def Hunk.header (h : Hunk) : Text :=
  let start (f : Part → Int) : Int := (h.head?.map f).getD 0
  let stop (f : Part → Int) : Int := (h.getLast?.map f).getD 0
  .concat ["@@ -", rangeText (start Part.leftStart) (stop Part.leftStop), " +",
    rangeText (start Part.rightStart) (stop Part.rightStop), " @@\n"]

/-- The place in a list of so many items that a number stands for; negative numbers count from the
end. -/
def placeIn (length : Nat) (i : Int) : Nat :=
  if i < 0 then (i + length).toNat else i.toNat

/-- The lines of a range, each with a sign in front. -/
def signed (sign : Char) (lines : List Text) (start stop : Int) : List Text :=
  ((lines.take (placeIn lines.length stop)).drop (placeIn lines.length start)).map
    ((sign : CodePoint) :: ·)

/-- The lines that a part shows. -/
def Part.lines (old new : List Text) (p : Part) : List Text :=
  let removed := signed '-' old p.leftStart p.leftStop
  let added := signed '+' new p.rightStart p.rightStop
  match p.kind with
  | .equal => signed ' ' old p.leftStart p.leftStop
  | .replace => removed ++ added
  | .delete => removed
  | .insert => added

/-- The header and the lines of a hunk. -/
def Hunk.lines (old new : List Text) (h : Hunk) : List Text :=
  h.header :: h.flatMap (Part.lines old new)

/-- The lines of a diff; none without hunks. -/
def diffLines (old new : List Text) (oldName newName : Text) (hs : List Hunk) : List Text :=
  if hs.isEmpty then []
  else .concat ["--- ", oldName, "\n"] :: .concat ["+++ ", newName, "\n"] ::
    hs.flatMap (Hunk.lines old new)

/-- A line that ends with a newline. -/
def closeLine (line : Text) : Text :=
  if line.getLast? = some ('\n' : CodePoint) then line else line ++ [('\n' : CodePoint)]

/-- Whether a line is rare enough among others to start a match: where there are many lines, a line
that makes up more than one in a hundred is not. -/
def isRare (lines : List Text) (line : Text) : Bool :=
  lines.length < 200 || lines.count line ≤ lines.length / 100 + 1

/-- The diff of two lists of lines, compared without white space. -/
def unifiedIgnoringBlanks (old new : List Text) (oldName newName : Text) (context : Int) : Text :=
  let es := edits (fun _ => true) (old.map Text.squeeze) (new.map Text.squeeze)
  Text.concat ((diffLines old new oldName newName (hunks context es)).map closeLine)

/-- The diff of two lists of lines, compared as they are. -/
def unifiedExact (old new : List Text) (oldName newName : Text) (context : Int) : Text :=
  Text.concat (diffLines old new oldName newName (hunks context (edits (isRare new) old new)))

/-- The diff of two lists of lines. -/
def unified (old new : List Text) (oldName newName : Text) (context : Int)
    (ignoreBlanks : Bool) : Text :=
  if ignoreBlanks then unifiedIgnoringBlanks old new oldName newName context
  else unifiedExact old new oldName newName context

end Renewal.Diff
