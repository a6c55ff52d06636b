import Renewal.Diff.Unified
import Renewal.Proofs.MatchedRuns

/-! # Edits and the hunks they are divided into

The edits between two lists follow each other without a gap from the start of both lists to their
ends (`Diff.spans_edits`). A hunk is a stretch of them whose equal ranges at both ends may have been
cut; what is cut off, and what is between two hunks, is alike in both lists, and never empty between
two hunks (`Diff.exists_hunks`).
-/

namespace Renewal.Diff

section Ranges

variable {α : Type} {xs : List α} {i j k : Nat}

/-- The elements of a list from one place up to another. -/
def range (xs : List α) (i k : Nat) : List α :=
  (xs.take k).drop i

theorem range_self (xs : List α) (i : Nat) : range xs i i = [] :=
  List.drop_eq_nil_of_le (List.length_take_le i xs)

theorem length_range (ends : k ≤ xs.length) : (range xs i k).length = k - i := by
  simp [range, Nat.min_eq_left ends]

theorem range_append (first : i ≤ j) (second : j ≤ k) :
    range xs i j ++ range xs j k = range xs i k := by
  have front : range xs i j = (range xs i k).take (j - i) := by
    rw [range, range, List.take_drop, Nat.add_sub_cancel' first, List.take_take,
      Nat.min_eq_left second]
  have back : range xs j k = (range xs i k).drop (j - i) := by
    rw [range, range, List.drop_drop, Nat.add_sub_cancel' first]
  rw [front, back, List.take_append_drop]

theorem range_append_drop (first : i ≤ k) : range xs i k ++ xs.drop k = xs.drop i := by
  have whole : xs.drop i = range xs i (max k xs.length) := by
    rw [range, List.take_of_length_le (Nat.le_max_right _ _)]
  have back : xs.drop k = range xs k (max k xs.length) := by
    rw [range, List.take_of_length_le (Nat.le_max_right _ _)]
  rw [whole, back, range_append first (Nat.le_max_left _ _)]

theorem map_range {β : Type} (f : α → β) (xs : List α) (i k : Nat) :
    (range xs i k).map f = range (xs.map f) i k := by
  simp [range, List.map_drop, List.map_take]

end Ranges

variable {α : Type} {as bs : List α} {e : Edit} {es es' : List Edit} {i j k l n m c d : Nat}

/-- An edit says of ranges of two lists what is so: ranges that it calls equal are, and it deletes
or inserts nothing on the other side. -/
structure Edit.Covers (as bs : List α) (e : Edit) : Prop where
  left : e.leftStart ≤ e.leftStop
  leftEnd : e.leftStop ≤ as.length
  right : e.rightStart ≤ e.rightStop
  rightEnd : e.rightStop ≤ bs.length
  equal : e.kind = .equal →
    range as e.leftStart e.leftStop = range bs e.rightStart e.rightStop
  delete : e.kind = .delete → e.rightStart = e.rightStop
  insert : e.kind = .insert → e.leftStart = e.leftStop

/-- Two lists are alike from a place of each up to another. -/
def Alike (as bs : List α) (i k j l : Nat) : Prop :=
  Edit.Covers as bs ⟨.equal, i, k, j, l⟩

namespace Alike

theorem length_eq (alike : Alike as bs i k j l) : k - i = l - j := by
  rw [← length_range alike.leftEnd, ← length_range alike.rightEnd]
  exact congrArg List.length (alike.equal rfl)

theorem nothing (left : i ≤ as.length) (right : j ≤ bs.length) : Alike as bs i i j j :=
  ⟨Nat.le_refl i, left, Nat.le_refl j, right, fun _ => by rw [range_self, range_self],
    by simp, by simp⟩

theorem join (first : Alike as bs i k j l) (second : Alike as bs k n l m) :
    Alike as bs i n j m := by
  refine ⟨Nat.le_trans first.left second.left, second.leftEnd,
    Nat.le_trans first.right second.right, second.rightEnd, fun _ => ?_, by simp, by simp⟩
  have same := first.equal rfl
  have same' := second.equal rfl
  dsimp only at same same' ⊢
  rw [← range_append first.left second.left, same, same',
    range_append first.right second.right]

/-- Ranges that are alike can be cut at the same distance from their starts. -/
theorem cut (alike : Alike as bs i k j l) (within : d ≤ k - i) :
    Alike as bs i (i + d) j (j + d) ∧ Alike as bs (i + d) k (j + d) l := by
  have same := alike.length_eq
  obtain ⟨left, leftEnd, right, rightEnd, equal, -, -⟩ := alike
  dsimp only at left leftEnd right rightEnd equal
  have parts : range as i (i + d) ++ range as (i + d) k =
      range bs j (j + d) ++ range bs (j + d) l := by
    rw [range_append (by omega) (by omega), range_append (by omega) (by omega), equal rfl]
  have front : (range as i (i + d)).length = (range bs j (j + d)).length := by
    rw [length_range (by omega), length_range (by omega)]
    omega
  obtain ⟨first, second⟩ := List.append_inj parts front
  exact ⟨⟨by simp, by simp only; omega, by simp, by simp only; omega, fun _ => first, by simp,
      by simp⟩,
    ⟨by simp only; omega, leftEnd, by simp only; omega, rightEnd, fun _ => second, by simp,
      by simp⟩⟩

end Alike

namespace Edit

/-- The first elements of an equal range. -/
def keepFront (c : Nat) (e : Edit) : Edit :=
  { e with leftStop := min e.leftStop (e.leftStart + c)
           rightStop := min e.rightStop (e.rightStart + c) }

/-- The last elements of an equal range. -/
def keepEnd (c : Nat) (e : Edit) : Edit :=
  { e with leftStart := max e.leftStart (e.leftStop - c)
           rightStart := max e.rightStart (e.rightStop - c) }

theorem keepFront_part (c : Nat) (e : Edit) : e.part.keepFront c = (e.keepFront c).part := by
  simp only [Part.keepFront, keepFront, part, Part.mk.injEq, true_and]
  omega

theorem keepEnd_part (c : Nat) (e : Edit) : e.part.keepEnd c = (e.keepEnd c).part := by
  simp only [Part.keepEnd, keepEnd, part, Part.mk.injEq, true_and, and_true]
  omega

theorem Covers.alike (covers : e.Covers as bs) (equal : e.kind = .equal) :
    Alike as bs e.leftStart e.leftStop e.rightStart e.rightStop := by
  cases e
  cases equal
  exact covers

/-- Behind the first elements of an equal range the lists are alike. -/
theorem Covers.keepFront (covers : e.Covers as bs) (equal : e.kind = .equal) (c : Nat) :
    (e.keepFront c).Covers as bs ∧ Alike as bs (e.keepFront c).leftStop e.leftStop
      (e.keepFront c).rightStop e.rightStop := by
  have alike := covers.alike equal
  have same := alike.length_eq
  have left := covers.left
  have right := covers.right
  obtain ⟨front, back⟩ := alike.cut (Nat.min_le_right c (e.leftStop - e.leftStart))
  have leftStop : e.leftStart + min c (e.leftStop - e.leftStart) =
      min e.leftStop (e.leftStart + c) := by omega
  have rightStop : e.rightStart + min c (e.leftStop - e.leftStart) =
      min e.rightStop (e.rightStart + c) := by omega
  rw [leftStop, rightStop] at front back
  refine ⟨?_, back⟩
  rw [Edit.keepFront, equal]
  exact front

/-- Before the last elements of an equal range the lists are alike. -/
theorem Covers.keepEnd (covers : e.Covers as bs) (equal : e.kind = .equal) (c : Nat) :
    Alike as bs e.leftStart (e.keepEnd c).leftStart e.rightStart (e.keepEnd c).rightStart ∧
      (e.keepEnd c).Covers as bs := by
  have alike := covers.alike equal
  have same := alike.length_eq
  have left := covers.left
  have right := covers.right
  obtain ⟨front, back⟩ := alike.cut (d := e.leftStop - e.leftStart - c) (Nat.sub_le _ _)
  have leftStart : e.leftStart + (e.leftStop - e.leftStart - c) =
      max e.leftStart (e.leftStop - c) := by omega
  have rightStart : e.rightStart + (e.leftStop - e.leftStart - c) =
      max e.rightStart (e.rightStop - c) := by omega
  rw [leftStart, rightStart] at front back
  refine ⟨front, ?_⟩
  rw [Edit.keepEnd, equal]
  exact back

/-- Between the first and the last elements of a long equal range some are left, and the lists are
alike there. -/
theorem Covers.between (covers : e.Covers as bs) (equal : e.kind = .equal)
    (long : 2 * c < e.leftStop - e.leftStart) :
    (e.keepFront c).leftStop + 1 ≤ (e.keepEnd c).leftStart ∧
      Alike as bs (e.keepFront c).leftStop (e.keepEnd c).leftStart (e.keepFront c).rightStop
        (e.keepEnd c).rightStart := by
  have same := (covers.alike equal).length_eq
  obtain ⟨-, rest⟩ := covers.keepFront equal c
  have left : (e.keepFront c).leftStop + (e.leftStop - e.leftStart - 2 * c) =
      (e.keepEnd c).leftStart := by
    simp only [Edit.keepFront, Edit.keepEnd]
    omega
  have right : (e.keepFront c).rightStop + (e.leftStop - e.leftStart - 2 * c) =
      (e.keepEnd c).rightStart := by
    simp only [Edit.keepFront, Edit.keepEnd]
    omega
  refine ⟨by omega, ?_⟩
  rw [← left, ← right]
  refine (rest.cut ?_).1
  simp only [Edit.keepFront]
  omega

end Edit

/-- Edits follow each other without a gap, from the places `i` and `j` on, up to `n` and `m`. -/
def Spans (as bs : List α) (n m : Nat) : (i j : Nat) → List Edit → Prop
  | i, j, [] => i = n ∧ j = m
  | i, j, e :: es => e.leftStart = i ∧ e.rightStart = j ∧ e.Covers as bs ∧
    Spans as bs n m e.leftStop e.rightStop es

namespace Spans

theorem append (first : Spans as bs k l i j es) (second : Spans as bs n m k l es') :
    Spans as bs n m i j (es ++ es') := by
  induction es generalizing i j with
  | nil =>
    obtain ⟨rfl, rfl⟩ := first
    exact second
  | cons e es ih => exact ⟨first.1, first.2.1, first.2.2.1, ih first.2.2.2⟩

theorem singleton (covers : e.Covers as bs) :
    Spans as bs e.leftStop e.rightStop e.leftStart e.rightStart [e] :=
  ⟨rfl, rfl, covers, rfl, rfl⟩

theorem le (spans : Spans as bs n m i j es) : i ≤ n ∧ j ≤ m := by
  induction es generalizing i j with
  | nil => exact ⟨Nat.le_of_eq spans.1, Nat.le_of_eq spans.2⟩
  | cons e es ih =>
    obtain ⟨rfl, rfl, covers, rest⟩ := spans
    have onward := ih rest
    exact ⟨Nat.le_trans covers.left onward.1, Nat.le_trans covers.right onward.2⟩

/-- The first edit starts where they all do. -/
theorem head? (spans : Spans as bs n m i j es) (some : es ≠ []) :
    es.head?.map Edit.leftStart = .some i ∧ es.head?.map Edit.rightStart = .some j := by
  cases es with
  | nil => exact absurd rfl some
  | cons e es => exact ⟨congrArg Option.some spans.1, congrArg Option.some spans.2.1⟩

/-- The last edit stops where they all do. -/
theorem getLast? (spans : Spans as bs n m i j es) (some : es ≠ []) :
    es.getLast?.map Edit.leftStop = .some n ∧ es.getLast?.map Edit.rightStop = .some m := by
  induction es generalizing i j with
  | nil => exact absurd rfl some
  | cons e es ih =>
    cases es with
    | nil =>
      obtain ⟨left, right⟩ := spans.2.2.2
      exact ⟨congrArg Option.some left, congrArg Option.some right⟩
    | cons next es => exact ih spans.2.2.2 (List.cons_ne_nil next es)

end Spans

theorem spans_changeBetween (left : i ≤ k) (right : j ≤ l) (leftEnd : k ≤ as.length)
    (rightEnd : l ≤ bs.length) : Spans as bs k l i j (changeBetween i k j l) := by
  unfold changeBetween
  split
  · exact .singleton ⟨left, leftEnd, right, rightEnd, by simp, by simp, by simp⟩
  · rename_i notBoth
    split
    · exact .singleton ⟨left, leftEnd, right, rightEnd, by simp, fun _ => by simp only; omega,
        by simp⟩
    · rename_i notLeft
      split
      · exact .singleton ⟨left, leftEnd, right, rightEnd, by simp, by simp,
          fun _ => by simp only; omega⟩
      · exact ⟨by omega, by omega⟩

/-- What is between common runs in order makes edits that follow each other. -/
theorem InOrder.spans {blocks : List Block}
    (inOrder : InOrder as bs as.length bs.length i j blocks) :
    Spans as bs as.length bs.length i j (editsFrom as.length bs.length i j blocks) := by
  induction blocks generalizing i j with
  | nil => exact spans_changeBetween inOrder.1 inOrder.2 (Nat.le_refl _) (Nat.le_refl _)
  | cons block blocks ih =>
    obtain ⟨left, right, ⟨leftEnd, rightEnd, same⟩, after⟩ := inOrder
    refine (spans_changeBetween left right (by omega) (by omega)).append
      ⟨rfl, rfl, ⟨by simp, leftEnd, by simp, rightEnd, fun _ => ?_, by simp, by simp⟩, ih after⟩
    simpa only [range, List.drop_take, Nat.add_sub_cancel_left] using same

/-- The edits between two lists follow each other from their starts to their ends. -/
theorem spans_edits [DecidableEq α] (usable : α → Bool) (as bs : List α) :
    Spans as bs as.length bs.length 0 0 (edits usable as bs) :=
  (inOrder_matchingBlocks usable as bs).spans

theorem exists_trimFront (spans : Spans as bs as.length bs.length i j es) (c : Nat) :
    ∃ es' i' j', trimFront c (es.map Edit.part) = es'.map Edit.part ∧ Alike as bs i i' j j' ∧
      Spans as bs as.length bs.length i' j' es' := by
  have bound := spans.le
  cases es with
  | nil => exact ⟨[], i, j, rfl, .nothing bound.1 bound.2, spans⟩
  | cons e es =>
    obtain ⟨rfl, rfl, covers, rest⟩ := spans
    rw [List.map_cons, trimFront]
    by_cases equal : e.kind = .equal
    · obtain ⟨alike, kept⟩ := covers.keepEnd equal c
      rw [if_pos (show e.part.kind = .equal from equal), Edit.keepEnd_part]
      exact ⟨e.keepEnd c :: es, _, _, rfl, alike, rfl, rfl, kept, rest⟩
    · rw [if_neg (show ¬e.part.kind = .equal from equal)]
      exact ⟨e :: es, _, _, rfl, .nothing bound.1 bound.2, rfl, rfl, covers, rest⟩

theorem exists_trimEnd (spans : Spans as bs as.length bs.length i j es) (c : Nat) :
    ∃ es' k l, trimEnd c (es.map Edit.part) = es'.map Edit.part ∧ Spans as bs k l i j es' ∧
      Alike as bs k as.length l bs.length := by
  induction es generalizing i j with
  | nil => exact ⟨[], _, _, rfl, spans, .nothing (Nat.le_refl _) (Nat.le_refl _)⟩
  | cons e es ih =>
    obtain ⟨rfl, rfl, covers, rest⟩ := spans
    cases es with
    | nil =>
      rw [List.map_singleton, trimEnd]
      by_cases equal : e.kind = .equal
      · obtain ⟨kept, alike⟩ := covers.keepFront equal c
        rw [if_pos (show e.part.kind = .equal from equal), Edit.keepFront_part]
        rw [rest.1, rest.2] at alike
        exact ⟨[e.keepFront c], _, _, rfl, .singleton kept, alike⟩
      · rw [if_neg (show ¬e.part.kind = .equal from equal)]
        exact ⟨[e], _, _, rfl, ⟨rfl, rfl, covers, rest⟩,
          .nothing (Nat.le_refl _) (Nat.le_refl _)⟩
    | cons next es =>
      obtain ⟨es', k, l, same, shown, alike⟩ := ih rest
      refine ⟨e :: es', k, l, ?_, ⟨rfl, rfl, covers, shown⟩, alike⟩
      rw [List.map_cons, List.map_cons, trimEnd, ← List.map_cons, same, List.map_cons]
      simp

/-- Hunks from the places `i` and `j` on: the lists are alike before each of them and after the
last one. At least `least` elements are left out before the first hunk, and one before others. -/
def Spread (as bs : List α) : (least i j : Nat) → List (List Edit) → Prop
  | _, i, j, [] => Alike as bs i as.length j bs.length
  | least, i, j, es :: rest => ∃ i' j' k l, i + least ≤ i' ∧ Alike as bs i i' j j' ∧ es ≠ [] ∧
    Spans as bs k l i' j' es ∧ Spread as bs 1 k l rest

theorem Spread.le {least : Nat} {hs : List (List Edit)} (spread : Spread as bs least i j hs) :
    i ≤ as.length ∧ j ≤ bs.length := by
  cases hs with
  | nil => exact ⟨spread.left, spread.right⟩
  | cons es rest =>
    obtain ⟨i', j', k, l, -, alike, -⟩ := spread
    exact ⟨Nat.le_trans alike.left alike.leftEnd, Nat.le_trans alike.right alike.rightEnd⟩

theorem Spread.widen {least : Nat} {hs : List (List Edit)} (alike : Alike as bs i k j l)
    (spread : Spread as bs 0 k l hs) (enough : i + least ≤ k) : Spread as bs least i j hs := by
  cases hs with
  | nil => exact alike.join spread
  | cons es rest =>
    obtain ⟨i', j', k', l', later, alike', shown⟩ := spread
    exact ⟨i', j', k', l', by omega, alike.join alike', shown⟩

/-- Edits are divided into hunks; `current` are those of the hunk so far. -/
theorem exists_divide {current : List Edit} (before : Spans as bs k l i j current)
    (spans : Spans as bs n m k l es) (alike : Alike as bs n as.length m bs.length) (c : Nat) :
    ∃ hs : List (List Edit),
      divide c (current.map Edit.part) (es.map Edit.part) = hs.map (List.map Edit.part) ∧
        Spread as bs 0 i j hs := by
  induction es generalizing i j k l current with
  | nil =>
    obtain ⟨rfl, rfl⟩ := spans
    obtain ⟨left, right⟩ := before.le
    rw [List.map_nil, divide]
    split
    · rename_i shown
      have some : current ≠ [] := by
        rintro rfl
        simp at shown
      exact ⟨[current], rfl, i, j, k, l, Nat.le_refl _,
        .nothing (Nat.le_trans left alike.left) (Nat.le_trans right alike.right), some, before,
        alike⟩
    · rename_i hidden
      -- What is not shown is at most one equal range.
      refine ⟨[], rfl, ?_⟩
      cases current with
      | nil =>
        obtain ⟨rfl, rfl⟩ := before
        exact alike
      | cons e rest =>
        obtain ⟨rfl, rfl, covers, onward⟩ := before
        cases rest with
        | nil =>
          obtain ⟨rfl, rfl⟩ := onward
          have equal : e.kind = .equal := by simpa [Edit.part] using hidden
          exact (covers.alike equal).join alike
        | cons next rest => simp at hidden
  | cons e es ih =>
    obtain ⟨rfl, rfl, covers, rest⟩ := spans
    rw [List.map_cons, divide]
    split
    · rename_i long
      have equal : e.kind = .equal := long.1
      have room : 2 * c < e.leftStop - e.leftStart := by
        have wide := long.2
        simp only [Edit.part] at wide
        omega
      obtain ⟨front, -⟩ := covers.keepFront equal c
      obtain ⟨-, back⟩ := covers.keepEnd equal c
      obtain ⟨apart, between⟩ := covers.between equal room
      obtain ⟨hs, same, spread⟩ := ih (.singleton back) rest
      rw [Edit.keepFront_part, Edit.keepEnd_part]
      refine ⟨(current ++ [e.keepFront c]) :: hs, ?_, ?_⟩
      · rw [List.map_cons, List.map_append, ← same]
        rfl
      · obtain ⟨left, right⟩ := before.le
        exact ⟨i, j, _, _, Nat.le_refl _,
          .nothing (Nat.le_trans left (Nat.le_trans covers.left covers.leftEnd))
            (Nat.le_trans right (Nat.le_trans covers.right covers.rightEnd)),
          by simp, before.append ⟨rfl, rfl, front, rfl, rfl⟩, spread.widen between apart⟩
    · rw [← List.map_singleton, ← List.map_append]
      exact ih (before.append (.singleton covers)) rest

/-- The hunks of two lists that differ are stretches of edits with something left out between
them. -/
theorem exists_hunks [DecidableEq α] (usable : α → Bool) (different : as ≠ bs) (c : Nat) :
    ∃ hs : List (List Edit), hunks c (edits usable as bs) = hs.map (List.map Edit.part) ∧
      Spread as bs 0 0 0 hs := by
  have spans := spans_edits usable as bs
  have some : edits usable as bs ≠ [] := by
    intro none
    exact different (eq_of_edits usable (by simp [none]))
  obtain ⟨es, i, j, front, before, spans⟩ := exists_trimFront spans c
  obtain ⟨es', k, l, back, spans, after⟩ := exists_trimEnd spans c
  have start : Spans as bs i j i j [] := ⟨rfl, rfl⟩
  obtain ⟨hs, same, spread⟩ := exists_divide start spans after c
  refine ⟨hs, ?_, spread.widen before (Nat.zero_le i)⟩
  rw [hunks, parts, if_neg (by simpa using some), front, back]
  exact same

end Renewal.Diff
