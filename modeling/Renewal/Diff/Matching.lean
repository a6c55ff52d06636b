/-! # Matching two lists

Two lists are matched by their longest common run, the earliest in the first list and then in the
second, and by matching what is before and after it in both lists. The edits between the lists
follow from the matching runs. Where the elements of the first list stand in the second is looked
up once; each search for a run then goes over these places only.
-/

namespace Renewal.Diff

/-- A run in each of two lists. -/
structure Block where
  /-- Where it starts in the first list. -/
  left : Nat
  /-- Where it starts in the second list. -/
  right : Nat
  size : Nat
deriving DecidableEq, Repr

variable {α : Type} [DecidableEq α]

/-- The two runs lie in their lists and have the same elements. -/
def Block.Common (block : Block) (as bs : List α) : Prop :=
  block.left + block.size ≤ as.length ∧ block.right + block.size ≤ bs.length ∧
    (as.drop block.left).take block.size = (bs.drop block.right).take block.size

instance (block : Block) (as bs : List α) : Decidable (block.Common as bs) :=
  inferInstanceAs (Decidable (_ ∧ _ ∧ _))

/-- Where an element stands in a list whose first element has the number `j`. -/
def placesFrom (a : α) : (j : Nat) → List α → List Nat
  | _, [] => []
  | j, b :: bs => if a = b then j :: placesFrom a (j + 1) bs else placesFrom a (j + 1) bs

/-- Where each element of the first list stands in the second; elements that cannot be used stand
nowhere. -/
def places (usable : α → Bool) (as bs : List α) : List (List Nat) :=
  as.map fun a => if usable a then placesFrom a 0 bs else []

/-- The places of a part of the second list that starts at `j` and has so many elements, counted
from its start. -/
def placesWithin (j size : Nat) (ps : List Nat) : List Nat :=
  (ps.filter fun p => j ≤ p && p < j + size).map (· - j)

/-- The lengths of the common runs that end at an element of the first list, by where they end in
the second list; `before` are the lengths for the element before. Both lists are in order. -/
def runLengths : (places : List Nat) → (before : List (Nat × Nat)) → List (Nat × Nat)
  | [], _ => []
  | p :: ps, before =>
    let before := before.dropWhile fun (q, _) => q + 1 < p
    let length := match before with
      | (q, n) :: _ => if q + 1 = p then n + 1 else 1
      | [] => 1
    (p, length) :: runLengths ps before

/-- The better of a run and the runs that end at the element of number `i`. -/
def betterBlock (i : Nat) (best : Block) (lengths : List (Nat × Nat)) : Block :=
  lengths.foldl (fun best (j, n) =>
    if best.size < n then ⟨i + 1 - n, j + 1 - n, n⟩ else best) best

/-- The longest run from the element of number `i` on, or an earlier one. -/
def longestFrom : (i : Nat) → Block → (before : List (Nat × Nat)) → List (List Nat) → Block
  | _, best, _, [] => best
  | i, best, before, ps :: rest =>
    let lengths := runLengths ps before
    longestFrom (i + 1) (betterBlock i best lengths) lengths rest

/-- How many elements two lists have in common at their front. -/
def commonFront : List α → List α → Nat
  | a :: as, b :: bs => if a = b then commonFront as bs + 1 else 0
  | _, _ => 0

/-- A run with the common elements before and after it. -/
def Block.extend (block : Block) (as bs : List α) : Block :=
  let before := commonFront (as.take block.left).reverse (bs.take block.right).reverse
  let after := commonFront (as.drop (block.left + block.size)) (bs.drop (block.right + block.size))
  ⟨block.left - before, block.right - before, before + block.size + after⟩

/-- The longest common run of usable elements, extended by the common elements around it. The first
element of the second list has the number `j`, and `ps` are the places of the elements of the first
list by these numbers. -/
def longestBlock (j : Nat) (ps : List (List Nat)) (as bs : List α) : Block :=
  (longestFrom 0 ⟨0, 0, 0⟩ [] (ps.map (placesWithin j bs.length))).extend as bs

/-- The common runs of two lists whose first elements have the numbers `i` and `j` in the lists
that they are parts of. -/
def blocksFrom (i j : Nat) (ps : List (List Nat)) (as bs : List α) : List Block :=
  let block := longestBlock j ps as bs
  if _ : 0 < block.size ∧ block.Common as bs then
    blocksFrom i j (ps.take block.left) (as.take block.left) (bs.take block.right) ++
      ⟨i + block.left, j + block.right, block.size⟩ ::
      blocksFrom (i + block.left + block.size) (j + block.right + block.size)
        (ps.drop (block.left + block.size))
        (as.drop (block.left + block.size)) (bs.drop (block.right + block.size))
  else []
termination_by as.length
decreasing_by
  · simp only [List.length_take, Block.Common, block] at *
    omega
  · simp only [List.length_drop, Block.Common, block] at *
    omega

/-- Runs that follow each other directly in both lists become one. -/
def mergeBlocks : List Block → List Block
  | [] => []
  | block :: rest =>
    match mergeBlocks rest with
    | next :: more =>
      if block.left + block.size = next.left ∧ block.right + block.size = next.right then
        ⟨block.left, block.right, block.size + next.size⟩ :: more
      else block :: next :: more
    | [] => [block]

/-- The common runs of two lists, in order. -/
def matchingBlocks (usable : α → Bool) (as bs : List α) : List Block :=
  mergeBlocks (blocksFrom 0 0 (places usable as bs) as bs)

/-- What happens to a range of the first list. -/
inductive EditKind where
  | equal
  | replace
  | delete
  | insert
deriving DecidableEq, Repr

/-- A step from the first list to the second: a range of each, from the start up to the stop. -/
structure Edit where
  kind : EditKind
  leftStart : Nat
  leftStop : Nat
  rightStart : Nat
  rightStop : Nat
deriving DecidableEq, Repr

/-- The change between two places of both lists, if there is any. -/
def changeBetween (i left j right : Nat) : List Edit :=
  if i < left ∧ j < right then [⟨.replace, i, left, j, right⟩]
  else if i < left then [⟨.delete, i, left, j, right⟩]
  else if j < right then [⟨.insert, i, left, j, right⟩]
  else []

/-- The edits from two places on, up to the ends `n` and `m`. -/
def editsFrom (n m : Nat) : Nat → Nat → List Block → List Edit
  | i, j, [] => changeBetween i n j m
  | i, j, block :: rest =>
    let left := block.left + block.size
    let right := block.right + block.size
    changeBetween i block.left j block.right ++
      ⟨.equal, block.left, left, block.right, right⟩ :: editsFrom n m left right rest

/-- The edits that turn the first list into the second. -/
def edits (usable : α → Bool) (as bs : List α) : List Edit :=
  editsFrom as.length bs.length 0 0 (matchingBlocks usable as bs)

end Renewal.Diff
