import Renewal.Diff.Unified
import Renewal.Proofs.MatchedRuns

/-! # When a unified diff is empty

A diff without regard to white space is empty just if the old and the new lines are as many, and
equal in pairs once their white space is removed (`Diff.unifiedIgnoringBlanks_eq_nil_iff`). Each
hunk has a header, so that a diff with hunks is not empty; and hunks are left out only where all
edits are equal ranges.
-/

namespace Renewal.Diff

variable {context : Int} {current : Hunk} {ps : List Part} {es : List Edit}

theorem map_kind_trimFront (context : Int) (ps : List Part) :
    (trimFront context ps).map Part.kind = ps.map Part.kind := by
  cases ps with
  | nil => rfl
  | cons p rest =>
    rw [trimFront, List.map_cons, List.map_cons]
    split <;> rfl

theorem map_kind_trimEnd (context : Int) (ps : List Part) :
    (trimEnd context ps).map Part.kind = ps.map Part.kind := by
  induction ps with
  | nil => rfl
  | cons p rest ih =>
    cases rest with
    | nil =>
      rw [trimEnd, List.map_singleton, List.map_singleton]
      split <;> rfl
    | cons next rest => rw [trimEnd, List.map_cons, ih, List.map_cons] <;> simp

/-- A change is shown in some hunk. -/
theorem divide_ne_nil (change : ∃ p ∈ current ++ ps, p.kind ≠ .equal) :
    divide context current ps ≠ [] := by
  induction ps generalizing current with
  | nil =>
    obtain ⟨p, member, different⟩ := change
    rw [List.append_nil] at member
    have some : current.any (·.kind != .equal) = true :=
      List.any_eq_true.mpr ⟨p, member, bne_iff_ne.mpr different⟩
    rw [divide, some, Bool.true_or, if_pos rfl]
    exact List.cons_ne_nil _ _
  | cons q rest ih =>
    rw [divide]
    split
    · exact List.cons_ne_nil _ _
    · exact ih (by simpa using change)

/-- Without hunks, all edits are equal ranges. -/
theorem equal_of_hunks_eq_nil (none : hunks context es = []) : ∀ e ∈ es, e.kind = .equal := by
  intro e member
  by_contra different
  have some : es.isEmpty = false := List.isEmpty_eq_false_iff.mpr (List.ne_nil_of_mem member)
  have kinds : (trimEnd context (trimFront context (parts es))).map Part.kind =
      es.map Edit.kind := by
    rw [map_kind_trimEnd, map_kind_trimFront, parts, some, if_neg Bool.false_ne_true, List.map_map]
    rfl
  have shown : e.kind ∈ (trimEnd context (trimFront context (parts es))).map Part.kind :=
    kinds ▸ List.mem_map_of_mem member
  obtain ⟨p, inside, same⟩ := List.mem_map.mp shown
  exact divide_ne_nil ⟨p, by simpa using inside, same ▸ different⟩ none

/-- A single equal range is not shown. -/
theorem divide_single {p : Part} (equal : p.kind = .equal) (nonnegative : 0 ≤ context) :
    divide context [] (trimEnd context (trimFront context [p])) = [] := by
  have trimmed : trimEnd context (trimFront context [p]) =
      [(p.keepEnd context).keepFront context] := by
    have kept : (p.keepEnd context).kind = .equal := equal
    rw [trimFront, if_pos equal, trimEnd, if_pos kept]
  have kind : ((p.keepEnd context).keepFront context).kind = .equal := equal
  have short : ¬2 * context < ((p.keepEnd context).keepFront context).leftStop -
      ((p.keepEnd context).keepFront context).leftStart := by
    simp only [Part.keepEnd, Part.keepFront]
    omega
  rw [trimmed, divide, if_neg fun long => short long.2, List.nil_append, divide]
  simp [kind]

theorem hunks_self {α : Type} [DecidableEq α] (as : List α) (nonnegative : 0 ≤ context) :
    hunks context (edits (fun _ => true) as as) = [] := by
  rw [hunks, edits_self]
  by_cases none : as = []
  · rw [if_pos none]
    exact divide_single rfl nonnegative
  · rw [if_neg none]
    exact divide_single rfl nonnegative

/-- A diff shows something if and only if it has hunks. -/
theorem concat_diffLines_eq_nil_iff {old new : List Text} {oldName newName : Text}
    {hs : List Hunk} :
    Text.concat ((diffLines old new oldName newName hs).map closeLine) = [] ↔ hs = [] := by
  constructor
  · intro nothing
    by_contra some
    rw [diffLines, if_neg (by simpa using some)] at nothing
    simp only [Text.concat, List.map_cons, List.flatten_cons, List.append_eq_nil_iff] at nothing
    have closed : ∀ line, closeLine line ≠ [] := by
      intro line
      unfold closeLine
      split
      · rintro rfl
        simp at *
      · simp
    exact closed _ nothing.1
  · rintro rfl
    rfl

/-- A diff without regard to white space is empty if and only if the lines are equal but for white
space. -/
theorem unifiedIgnoringBlanks_eq_nil_iff (old new : List Text) (oldName newName : Text)
    (nonnegative : 0 ≤ context) :
    unifiedIgnoringBlanks old new oldName newName context = [] ↔
      old.map Text.squeeze = new.map Text.squeeze := by
  rw [unifiedIgnoringBlanks, concat_diffLines_eq_nil_iff]
  constructor
  · intro none
    exact eq_of_edits _ (equal_of_hunks_eq_nil none)
  · intro same
    rw [same]
    exact hunks_self _ nonnegative

end Renewal.Diff
