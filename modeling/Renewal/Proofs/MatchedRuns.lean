import Mathlib.Data.List.TakeWhile
import Renewal.Diff.Matching

/-! # What the edits between two lists tell

The runs that two lists are matched by are common to both, and follow each other in both
(`Diff.inOrder_matchingBlocks`). So where nothing but equal ranges is left of the edits, the lists
are equal. Conversely a list is matched with itself as a whole (`Diff.edits_self`), since on its way
through the list the search for the longest run always knows the run from the start.
-/

namespace Renewal.Diff

section Runs

variable {α : Type} {as bs part part' : List α} {block : Block} {blocks rest : List Block}
  {i j k l n m : Nat}

/-- A run that is common to parts of two lists is common to the lists. -/
theorem Block.Common.whole (common : block.Common part part') (front front' back back' : List α) :
    Block.Common ⟨front.length + block.left, front'.length + block.right, block.size⟩
      (front ++ (part ++ back)) (front' ++ (part' ++ back')) := by
  obtain ⟨fits, fits', same⟩ := common
  have inside : ∀ {front part back : List α} {left : Nat}, left + block.size ≤ part.length →
      ((front ++ (part ++ back)).drop (front.length + left)).take block.size =
        (part.drop left).take block.size := by
    intro front part back left fits
    have short : block.size ≤ (part.drop left).length := by
      rw [List.length_drop]
      omega
    rw [← List.drop_drop, List.drop_left,
      List.drop_append_of_le_length (Nat.le_of_add_right_le fits),
      List.take_append_of_le_length short]
  refine ⟨?_, ?_, by rw [inside fits, inside fits', same]⟩
  · simp only [List.length_append]
    omega
  · simp only [List.length_append]
    omega

/-- Two common runs of which one follows the other in both lists are one common run. -/
theorem Block.Common.join {next : Block} (common : block.Common as bs) (common' : next.Common as bs)
    (left : block.left + block.size = next.left) (right : block.right + block.size = next.right) :
    Block.Common ⟨block.left, block.right, block.size + next.size⟩ as bs := by
  obtain ⟨-, -, same⟩ := common
  obtain ⟨fits, fits', same'⟩ := common'
  rw [← left] at fits same'
  rw [← right] at fits' same'
  refine ⟨?_, ?_, ?_⟩
  · simp only
    omega
  · simp only
    omega
  · simp only [List.take_add, List.drop_drop, same, same']

/-- Common runs of two lists, in order: from the places `i` and `j` on, up to the ends `n` and `m`.
-/
def InOrder (as bs : List α) (n m : Nat) : (i j : Nat) → List Block → Prop
  | i, j, [] => i ≤ n ∧ j ≤ m
  | i, j, block :: rest => i ≤ block.left ∧ j ≤ block.right ∧ block.Common as bs ∧
    InOrder as bs n m (block.left + block.size) (block.right + block.size) rest

theorem InOrder.append_cons (before : InOrder as bs k l i j blocks) (left : k ≤ block.left)
    (right : l ≤ block.right) (common : block.Common as bs)
    (after : InOrder as bs n m (block.left + block.size) (block.right + block.size) rest) :
    InOrder as bs n m i j (blocks ++ block :: rest) := by
  induction blocks generalizing i j with
  | nil => exact ⟨Nat.le_trans before.1 left, Nat.le_trans before.2 right, common, after⟩
  | cons first blocks ih => exact ⟨before.1, before.2.1, before.2.2.1, ih before.2.2.2⟩

/-- Joining runs that follow each other directly leaves runs in order. -/
theorem InOrder.mergeBlocks (inOrder : InOrder as bs n m i j blocks) :
    InOrder as bs n m i j (mergeBlocks blocks) := by
  induction blocks generalizing i j with
  | nil => exact inOrder
  | cons block blocks ih =>
    obtain ⟨left, right, common, after⟩ := inOrder
    have merged := ih after
    rw [Diff.mergeBlocks]
    cases later : Diff.mergeBlocks blocks with
    | nil =>
      rw [later] at merged
      exact ⟨left, right, common, merged⟩
    | cons next more =>
      rw [later] at merged
      dsimp only
      split
      · rename_i follows
        refine ⟨left, right, common.join merged.2.2.1 follows.1 follows.2, ?_⟩
        simpa only [← Nat.add_assoc, follows.1, follows.2] using merged.2.2.2
      · exact ⟨left, right, common, merged⟩

end Runs

variable {α : Type} [DecidableEq α] {as bs : List α} {blocks : List Block} {i j n m : Nat}

/-- The runs of two parts are in order in the lists that they are parts of. -/
theorem inOrder_blocksFrom (ps : List (List Nat)) (part part' front front' back back' : List α) :
    InOrder (front ++ (part ++ back)) (front' ++ (part' ++ back')) (front.length + part.length)
      (front'.length + part'.length) front.length front'.length
      (blocksFrom front.length front'.length ps part part') := by
  induction size : part.length using Nat.strongRecOn
    generalizing ps part part' front front' back back' with
  | ind size ih =>
    subst size
    rw [blocksFrom]
    generalize longestBlock front'.length ps part part' = block
    split
    · rename_i some
      obtain ⟨written, common⟩ := some
      have whole := common.whole front front' back back'
      obtain ⟨fits, fits', -⟩ := common
      -- What is before the run, and what is after it.
      have before := ih (part.take block.left).length (by rw [List.length_take]; omega)
        (ps.take block.left) (part.take block.left) (part'.take block.right) front front'
        (part.drop block.left ++ back) (part'.drop block.right ++ back') rfl
      have after := ih (part.drop (block.left + block.size)).length
        (by rw [List.length_drop]; omega) (ps.drop (block.left + block.size))
        (part.drop (block.left + block.size)) (part'.drop (block.right + block.size))
        (front ++ part.take (block.left + block.size))
        (front' ++ part'.take (block.right + block.size))
        back back' rfl
      simp only [List.append_assoc, List.take_append_drop, ← List.append_assoc (List.take _ _),
        List.length_append, List.length_take, List.length_drop, Nat.min_eq_left fits,
        Nat.min_eq_left fits', Nat.min_eq_left (Nat.le_of_add_right_le fits),
        Nat.min_eq_left (Nat.le_of_add_right_le fits')] at before after
      refine before.append_cons (Nat.le_refl _) (Nat.le_refl _) whole ?_
      simpa only [Nat.add_assoc, Nat.add_sub_of_le fits, Nat.add_sub_of_le fits'] using after
    · exact ⟨Nat.le_add_right _ _, Nat.le_add_right _ _⟩

/-- The common runs of two lists are in order. -/
theorem inOrder_matchingBlocks (usable : α → Bool) (as bs : List α) :
    InOrder as bs as.length bs.length 0 0 (matchingBlocks usable as bs) := by
  apply InOrder.mergeBlocks
  simpa using inOrder_blocksFrom (places usable as bs) as bs [] [] [] []

theorem changeBetween_equal {left right : Nat}
    (equal : ∀ e ∈ changeBetween i left j right, e.kind = .equal) : left ≤ i ∧ right ≤ j := by
  unfold changeBetween at equal
  split at equal
  · cases equal _ List.mem_cons_self
  split at equal
  · cases equal _ List.mem_cons_self
  split at equal
  · cases equal _ List.mem_cons_self
  · omega

omit [DecidableEq α] in
/-- Where edits only tell of equal ranges, the lists are equal from there on. -/
theorem InOrder.drop_eq (inOrder : InOrder as bs as.length bs.length i j blocks)
    (equal : ∀ e ∈ editsFrom as.length bs.length i j blocks, e.kind = .equal) :
    as.drop i = bs.drop j := by
  induction blocks generalizing i j with
  | nil =>
    obtain ⟨ended, ended'⟩ := changeBetween_equal equal
    rw [List.drop_eq_nil_of_le ended, List.drop_eq_nil_of_le ended']
  | cons block blocks ih =>
    obtain ⟨left, right, ⟨-, -, same⟩, after⟩ := inOrder
    rw [editsFrom] at equal
    obtain ⟨start, start'⟩ :=
      changeBetween_equal fun e member => equal e (List.mem_append_left _ member)
    obtain rfl := Nat.le_antisymm left start
    obtain rfl := Nat.le_antisymm right start'
    have later := ih after fun e member =>
      equal e (List.mem_append_right _ (List.mem_cons_of_mem _ member))
    rw [← List.take_append_drop block.size (as.drop block.left), same, List.drop_drop, later,
      ← List.drop_drop, List.take_append_drop]

/-- Where edits only tell of equal ranges, the lists are equal. -/
theorem eq_of_edits (usable : α → Bool) (equal : ∀ e ∈ edits usable as bs, e.kind = .equal) :
    as = bs :=
  (inOrder_matchingBlocks usable as bs).drop_eq equal

theorem mem_placesFrom {a : α} {p : Nat} :
    p ∈ placesFrom a j bs ↔ ∃ k, bs[k]? = some a ∧ p = j + k := by
  induction bs generalizing j with
  | nil => simp [placesFrom]
  | cons b bs ih =>
    have later : (∃ k, bs[k]? = some a ∧ p = j + 1 + k) ↔
        ∃ k, (b :: bs)[k + 1]? = some a ∧ p = j + (k + 1) := by
      simp only [List.getElem?_cons_succ, Nat.add_assoc, Nat.add_comm 1]
    have split : (∃ k, (b :: bs)[k]? = some a ∧ p = j + k) ↔
        (b = a ∧ p = j) ∨ ∃ k, (b :: bs)[k + 1]? = some a ∧ p = j + (k + 1) := by
      constructor
      · rintro ⟨_ | k, there, rfl⟩
        · exact .inl ⟨by simpa using there, rfl⟩
        · exact .inr ⟨k, there, rfl⟩
      · rintro (⟨rfl, rfl⟩ | ⟨k, there, rfl⟩)
        · exact ⟨0, rfl, rfl⟩
        · exact ⟨k + 1, there, rfl⟩
    rw [placesFrom, split, ← later, ← ih]
    by_cases same : a = b
    · simp [same]
    · simp [same, Ne.symm same]

theorem pairwise_placesFrom (a : α) (j : Nat) (bs : List α) :
    (placesFrom a j bs).Pairwise (· < ·) := by
  induction bs generalizing j with
  | nil => exact .nil
  | cons b bs ih =>
    rw [placesFrom]
    split
    · refine .cons (fun p later => ?_) (ih (j + 1))
      obtain ⟨k, -, rfl⟩ := mem_placesFrom.mp later
      omega
    · exact ih (j + 1)

/-- The runs that do not end too early to go on at a place. -/
def runsUpTo (p : Nat) (before : List (Nat × Nat)) : List (Nat × Nat) :=
  before.dropWhile fun q => q.1 + 1 < p

theorem mem_runsUpTo {p : Nat} {before : List (Nat × Nat)} {q : Nat × Nat} (member : q ∈ before)
    (late : p ≤ q.1 + 1) : q ∈ runsUpTo p before := by
  rw [← List.takeWhile_append_dropWhile (p := fun q => decide (q.1 + 1 < p)) (l := before),
    List.mem_append] at member
  refine member.resolve_left fun early => ?_
  have := List.mem_takeWhile_imp early
  simp only [decide_eq_true_eq] at this
  omega

/-- The run that ends at a place is one longer than the run that ends just before in both lists. -/
theorem runLengths_cons (p : Nat) (ps : List Nat) {before : List (Nat × Nat)}
    (sorted : before.Pairwise fun q r => q.1 < r.1) :
    ∃ length, runLengths (p :: ps) before = (p, length) :: runLengths ps (runsUpTo p before) ∧
      (length = 1 ∨ ∃ q ∈ before, q.1 + 1 = p ∧ length = q.2 + 1) ∧
      ∀ q ∈ before, q.1 + 1 = p → length = q.2 + 1 := by
  have suffix : runsUpTo p before <:+ before := List.dropWhile_suffix _
  have first := List.head?_dropWhile_not (fun q : Nat × Nat => decide (q.1 + 1 < p)) before
  refine ⟨_, rfl, ?_⟩
  rw [← runsUpTo] at first ⊢
  have inside : ∀ q ∈ before, q.1 + 1 = p → q ∈ runsUpTo p before :=
    fun q member next => mem_runsUpTo member (Nat.le_of_eq next.symm)
  have sortedLeft := sorted.sublist suffix.sublist
  cases left : runsUpTo p before with
  | nil =>
    rw [left] at inside
    exact ⟨.inl rfl, fun q member next => absurd (inside q member next) List.not_mem_nil⟩
  | cons r more =>
    rw [left] at inside first sortedLeft suffix
    dsimp only [List.head?_cons] at first ⊢
    simp only [decide_eq_false_iff_not, Nat.not_lt] at first
    by_cases next : r.1 + 1 = p
    · rw [if_pos next]
      refine ⟨.inr ⟨r, suffix.subset List.mem_cons_self, next, rfl⟩, fun q member next' => ?_⟩
      rcases List.mem_cons.mp (inside q member next') with rfl | later
      · rfl
      · have := (List.pairwise_cons.mp sortedLeft).1 q later
        omega
    · rw [if_neg next]
      refine ⟨.inl rfl, fun q member next' => ?_⟩
      rcases List.mem_cons.mp (inside q member next') with rfl | later
      · exact absurd next' next
      · have := (List.pairwise_cons.mp sortedLeft).1 q later
        omega

/-- What is told of the runs that end at an element, given those that end at the element before. -/
theorem runLengths_spec {ps : List Nat} {before : List (Nat × Nat)} (sorted : ps.Pairwise (· < ·))
    (sorted' : before.Pairwise fun q r => q.1 < r.1) :
    (runLengths ps before).map Prod.fst = ps ∧
    (∀ p ∈ runLengths ps before, p.2 = 1 ∨ ∃ q ∈ before, q.1 + 1 = p.1 ∧ p.2 = q.2 + 1) ∧
    ∀ q ∈ before, q.1 + 1 ∈ ps → (q.1 + 1, q.2 + 1) ∈ runLengths ps before := by
  induction ps generalizing before with
  | nil => simp [runLengths]
  | cons p ps ih =>
    obtain ⟨ahead, sorted⟩ := List.pairwise_cons.mp sorted
    obtain ⟨length, same, told, found⟩ := runLengths_cons p ps sorted'
    have suffix : runsUpTo p before <:+ before := List.dropWhile_suffix _
    obtain ⟨firsts, told', found'⟩ := ih sorted (sorted'.sublist suffix.sublist)
    rw [same]
    refine ⟨by rw [List.map_cons, firsts], fun r member => ?_, fun q member next => ?_⟩
    · rcases List.mem_cons.mp member with rfl | later
      · exact told
      · obtain one | ⟨q, inside, next⟩ := told' r later
        · exact .inl one
        · exact .inr ⟨q, suffix.subset inside, next⟩
    · rcases List.mem_cons.mp next with here | later
      · rw [here, ← found q member here]
        exact List.mem_cons_self
      · have := ahead _ later
        exact List.mem_cons_of_mem _ (found' q (mem_runsUpTo member (by omega)) later)

/-- Runs that end by `i` in the first list, and before `n` in the second, and that have room before
their ends. -/
def Ending (n i : Nat) (lengths : List (Nat × Nat)) : Prop :=
  ∀ p ∈ lengths, p.1 < n ∧ p.2 ≤ p.1 + 1 ∧ p.2 ≤ i

/-- A run that ends by `i` in the first list and by `n` in the second. -/
structure Block.EndsBy (block : Block) (i n : Nat) : Prop where
  left : block.left + block.size ≤ i
  right : block.right + block.size ≤ n

theorem betterBlock_cons (i : Nat) (best : Block) (p : Nat × Nat) (lengths : List (Nat × Nat)) :
    betterBlock i best (p :: lengths) = betterBlock i
      (if best.size < p.2 then ⟨i + 1 - p.2, p.1 + 1 - p.2, p.2⟩ else best) lengths :=
  rfl

/-- The better of some runs is as long as each of them. -/
theorem betterBlock_spec {best : Block} {lengths : List (Nat × Nat)}
    (ending : Ending n (i + 1) lengths) (ends : best.EndsBy (i + 1) n) :
    (betterBlock i best lengths).EndsBy (i + 1) n ∧
      ∀ p ∈ lengths, p.2 ≤ (betterBlock i best lengths).size := by
  have all : best.size ≤ (betterBlock i best lengths).size ∧
      (betterBlock i best lengths).EndsBy (i + 1) n ∧
        ∀ p ∈ lengths, p.2 ≤ (betterBlock i best lengths).size := by
    induction lengths generalizing best with
    | nil => exact ⟨Nat.le_refl _, ends, by simp⟩
    | cons p lengths ih =>
      obtain ⟨inside, short, short'⟩ := ending p List.mem_cons_self
      have later : Ending n (i + 1) lengths :=
        fun q member => ending q (List.mem_cons_of_mem _ member)
      rw [betterBlock_cons]
      by_cases longer : best.size < p.2
      · have new : Block.EndsBy ⟨i + 1 - p.2, p.1 + 1 - p.2, p.2⟩ (i + 1) n :=
          ⟨by simp only; omega, by simp only; omega⟩
        rw [if_pos longer]
        obtain ⟨grows, ends, above⟩ := ih later new
        refine ⟨Nat.le_trans (Nat.le_of_lt longer) grows, ends, fun q member => ?_⟩
        rcases List.mem_cons.mp member with rfl | member
        · exact grows
        · exact above q member
      · rw [if_neg longer]
        obtain ⟨grows, ends, above⟩ := ih later ends
        refine ⟨grows, ends, fun q member => ?_⟩
        rcases List.mem_cons.mp member with rfl | member
        · exact Nat.le_trans (Nat.le_of_not_lt longer) grows
        · exact above q member
  exact all.2

/-- What a search for the longest run of a list in itself knows once it has passed `i` elements: the
run of all of them. -/
structure Diagonal (n i : Nat) (best : Block) (before : List (Nat × Nat)) : Prop where
  sorted : before.Pairwise fun q r => q.1 < r.1
  ending : Ending n i before
  run : 0 < i → (i - 1, i) ∈ before
  ends : best.EndsBy i n
  longest : i ≤ best.size

/-- One more element makes the run of all elements longer by one. -/
theorem Diagonal.step {best : Block} {before : List (Nat × Nat)}
    (diagonal : Diagonal n i best before) {ps : List Nat} (sorted : ps.Pairwise (· < ·))
    (bound : ∀ p ∈ ps, p < n) (here : i ∈ ps) :
    Diagonal n (i + 1) (betterBlock i best (runLengths ps before)) (runLengths ps before) := by
  obtain ⟨firsts, told, found⟩ := runLengths_spec sorted diagonal.sorted
  have ending : Ending n (i + 1) (runLengths ps before) := by
    intro p member
    have inside : p.1 ∈ ps := firsts ▸ List.mem_map_of_mem member
    refine ⟨bound _ inside, ?_⟩
    obtain one | ⟨q, earlier, next, longer⟩ := told p member
    · omega
    · obtain ⟨-, short, short'⟩ := diagonal.ending q earlier
      omega
  have run : (i, i + 1) ∈ runLengths ps before := by
    rcases Nat.eq_zero_or_pos i with rfl | later
    · obtain ⟨p, member, start⟩ := List.mem_map.mp (firsts.symm ▸ here)
      obtain one | ⟨q, -, next, -⟩ := told p member
      · exact (show p = (0, 0 + 1) from Prod.ext start one) ▸ member
      · omega
    · have back : i - 1 + 1 = i := Nat.sub_add_cancel later
      have := found _ (diagonal.run later) (by rwa [back])
      rwa [back] at this
  obtain ⟨ends, above⟩ := betterBlock_spec ending
    ⟨Nat.le_succ_of_le diagonal.ends.left, diagonal.ends.right⟩
  refine ⟨?_, ending, fun _ => run, ends, above _ run⟩
  rw [← firsts, List.pairwise_map] at sorted
  exact sorted

theorem longestFrom_self {front rest : List α} {best : Block} {before : List (Nat × Nat)}
    (whole : as = front ++ rest) (diagonal : Diagonal as.length front.length best before) :
    longestFrom front.length best before (rest.map fun a => placesFrom a 0 as) =
      ⟨0, 0, as.length⟩ := by
  induction rest generalizing front best before with
  | nil =>
    rw [List.append_nil] at whole
    subst whole
    obtain ⟨left, right⟩ := diagonal.ends
    have longest := diagonal.longest
    rw [List.map_nil, longestFrom]
    cases best
    simp only [Block.mk.injEq] at *
    omega
  | cons a rest ih =>
    have here : front.length ∈ placesFrom a 0 as :=
      mem_placesFrom.mpr ⟨front.length, by simp [whole], by simp⟩
    have bound : ∀ p ∈ placesFrom a 0 as, p < as.length := by
      intro p member
      obtain ⟨k, there, rfl⟩ := mem_placesFrom.mp member
      rw [Nat.zero_add]
      exact (List.getElem?_eq_some_iff.mp there).1
    have next := diagonal.step (pairwise_placesFrom a 0 as) bound here
    rw [List.map_cons, longestFrom]
    have length : (front ++ [a]).length = front.length + 1 := by simp
    rw [← length] at next ⊢
    exact ih (by simp [whole]) next

/-- The longest run of a list in itself is all of it. -/
theorem longestBlock_self (as : List α) :
    longestBlock 0 (places (fun _ => true) as as) as as = ⟨0, 0, as.length⟩ := by
  have all : (places (fun _ => true) as as).map (placesWithin 0 as.length) =
      as.map fun a => placesFrom a 0 as := by
    rw [places, List.map_map]
    refine List.map_congr_left fun a _ => ?_
    have inside : ∀ p ∈ placesFrom a 0 as,
        (decide (0 ≤ p) && decide (p < 0 + as.length)) = true := by
      intro p member
      obtain ⟨k, there, rfl⟩ := mem_placesFrom.mp member
      simpa using (List.getElem?_eq_some_iff.mp there).1
    simp only [Function.comp_apply, ↓reduceIte, placesWithin, List.filter_eq_self.mpr inside]
    simp
  have start : Diagonal as.length ([] : List α).length ⟨0, 0, 0⟩ [] :=
    ⟨.nil, by simp [Ending], by simp, ⟨Nat.le_refl 0, Nat.zero_le _⟩, Nat.le_refl 0⟩
  have longest := longestFrom_self (List.nil_append as).symm start
  rw [List.length_nil] at longest
  rw [longestBlock, all, longest]
  simp [Block.extend, commonFront]

/-- Nothing matches in an empty list. -/
theorem blocksFrom_nil (i j : Nat) : blocksFrom i j [] ([] : List α) [] = [] := by
  rw [blocksFrom]
  simp [longestBlock, longestFrom, Block.extend, commonFront]

/-- All of a list is equal to itself. -/
theorem edits_self (as : List α) : edits (fun _ => true) as as =
    if as = [] then [] else [⟨.equal, 0, as.length, 0, as.length⟩] := by
  have blocks : blocksFrom 0 0 (places (fun _ => true) as as) as as =
      if as = [] then [] else [⟨0, 0, as.length⟩] := by
    by_cases none : as = []
    · subst none
      exact blocksFrom_nil 0 0
    · have common : Block.Common ⟨0, 0, as.length⟩ as as := by simp [Block.Common]
      have ended : (places (fun _ => true) as as).drop as.length = [] := by simp [places]
      rw [blocksFrom, longestBlock_self, dif_pos ⟨List.length_pos_iff.mpr none, common⟩]
      simp [blocksFrom_nil, none, ended]
  rw [edits, matchingBlocks, blocks]
  by_cases none : as = []
  · simp [none, mergeBlocks, editsFrom, changeBetween]
  · simp [none, mergeBlocks, editsFrom, changeBetween]

end Renewal.Diff
