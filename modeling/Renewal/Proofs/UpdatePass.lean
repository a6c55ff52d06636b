import Mathlib.Algebra.BigOperators.Group.List.Basic
import Mathlib.Data.List.Induction
import Mathlib.Data.List.Nodup
import Renewal.Proofs.PatternSearch
import Renewal.Update

/-! # An update as one pass

Rules that can be read and that do not get in each other's way leave what a single pass leaves, and
each is applied as often as it takes something in that pass.
-/

namespace Renewal

open Sweep

variable {r : Rule} {rules : List Rule} {among : Set Rule}

namespace Rule

/-- What a rule takes at the start of a text and puts in its place. -/
def hit? (r : Rule) (t : Text) : Option Hit :=
  match r.read with
  | .error _ => none
  | .ok s => s.pattern.hit? s.template.expand t

/-- A rule that can be read, and that only looks at what it takes and at what comes after. -/
def Applicable (r : Rule) : Prop :=
  ∃ s, r.read = .ok s ∧ s.pattern.Steady

theorem hit?_eq {s : Substitution} (reads : r.read = .ok s) (t : Text) :
    r.hit? t = s.pattern.hit? s.template.expand t := by
  rw [hit?, reads]

end Rule

namespace Updated

/-- A text after a single pass, with the rules that have taken something. -/
def ofPass (rules : List Rule) (t : Text) : Updated where
  text := sweep Rule.hit? rules t
  applied := rules.filterMap fun r =>
    let n := count r (parts Rule.hit? rules t)
    if n = 0 then none else some (r, n)

theorem step_eq (applicable : r.Applicable) (u : Updated) :
    u.step Rule.apply r = .ok
      { text := sweep Rule.hit? [r] u.text
        applied := u.applied ++ (ofPass [r] u.text).applied } := by
  obtain ⟨s, reads, steady⟩ := applicable
  have applied := steady.replaceAll_eq (Rule.hit?_eq reads) u.text
  rw [step, Rule.apply, reads]
  simp only [Except.map, Substitution.apply, applied, ofPass]
  by_cases idle : count r (parts Rule.hit? [r] u.text) = 0
  · simp [idle]
  · simp [idle]

/-- One more rule after a pass comes to the same as a pass with that rule as well. -/
theorem step_ofPass (orderly : Orderly Rule.hit? among) (inside : ∀ r ∈ rules, r ∈ among)
    (member : r ∈ among) (applicable : r.Applicable) (fresh : r ∉ rules)
    (clear : ∀ r' ∈ rules, Clear Rule.hit? r' r) (t : Text) :
    (ofPass rules t).step Rule.apply r = .ok (ofPass (rules ++ [r]) t) := by
  obtain ⟨text, counts⟩ := orderly.twofold inside member clear t
  have before : ∀ r' ∈ rules, count r' (parts Rule.hit? (rules ++ [r]) t) =
      count r' (parts Rule.hit? rules t) := by
    intro r' tried
    have other : r' ∉ [r] := fun same => fresh (List.mem_singleton.mp same ▸ tried)
    rw [← counts, count_eq_zero other, Nat.add_zero]
  have last : count r (parts Rule.hit? (rules ++ [r]) t) =
      count r (parts Rule.hit? [r] (sweep Rule.hit? rules t)) := by
    rw [← counts, count_eq_zero fresh, Nat.zero_add]
  rw [step_eq applicable]
  congr 1
  simp only [ofPass, text, List.filterMap_append, Updated.mk.injEq, true_and]
  congr 1
  · apply List.filterMap_congr
    intro r' tried
    rw [before r' tried]
  · simp only [List.filterMap_cons, List.filterMap_nil, last]

end Updated

/-- An update with rules of which none gets in the way of a later one is a single pass. -/
theorem update_eq_ofPass (orderly : Orderly Rule.hit? among) (inside : ∀ r ∈ rules, r ∈ among)
    (applicable : ∀ r ∈ rules, r.Applicable) (nodup : rules.Nodup)
    (clear : rules.Pairwise (Clear Rule.hit?)) (t : Text) :
    update rules t = .ok (.ofPass rules t) := by
  induction rules using List.reverseRecOn with
  | nil =>
    rw [Updated.ofPass, sweep_eq_self (by simp)]
    rfl
  | append_singleton rules r ih =>
    obtain ⟨earlier, -, clearLast⟩ := List.pairwise_append.mp clear
    obtain ⟨nodupEarlier, -, apart⟩ := List.nodup_append.mp nodup
    have fresh : r ∉ rules := fun tried => apart r tried r (List.mem_singleton_self r) rfl
    have earlierEq := ih (fun r' tried => inside r' (List.mem_append_left _ tried))
      (fun r' tried => applicable r' (List.mem_append_left _ tried)) nodupEarlier earlier
    rw [update, List.foldlM_append, ← update, earlierEq]
    have step := Updated.step_ofPass orderly
      (fun r' tried => inside r' (List.mem_append_left _ tried))
      (inside r (by simp)) (applicable r (by simp)) fresh
      (fun r' tried => clearLast r' tried r (List.mem_singleton_self r)) t
    change (Updated.ofPass rules t).step Rule.apply r >>= pure = _
    rw [bind_pure, step]

namespace Updated

variable {t : Text} {n : Nat}

/-- The rules that applied are those that have taken something. -/
theorem mem_applied_ofPass_iff : (r, n) ∈ (ofPass rules t).applied ↔
    r ∈ rules ∧ count r (parts Rule.hit? rules t) = n ∧ n ≠ 0 := by
  simp only [ofPass, List.mem_filterMap, Option.ite_none_left_eq_some, Option.some.injEq,
    Prod.mk.injEq]
  constructor
  · rintro ⟨_, tried, taken, rfl, rfl⟩
    exact ⟨tried, rfl, taken⟩
  · rintro ⟨tried, rfl, taken⟩
    exact ⟨r, tried, taken, rfl, rfl⟩

theorem mem_applied_ofPass (tried : r ∈ rules)
    (taken : 0 < count r (parts Rule.hit? rules t)) :
    ∃ n, 0 < n ∧ (r, n) ∈ (ofPass rules t).applied :=
  ⟨_, taken, mem_applied_ofPass_iff.mpr ⟨tried, rfl, Nat.ne_of_gt taken⟩⟩

/-- What the rules have taken adds up to all that was taken. -/
theorem foldl_count {ps : List (Sweep.Part Rule)} (nodup : rules.Nodup)
    (inside : ∀ r h, .changed r h ∈ ps → r ∈ rules) :
    rules.foldl (fun n r => n + count r ps) 0 = Sweep.changes ps := by
  have total : ∀ f : Rule → Nat, rules.foldl (fun n r => n + f r) 0 = (rules.map f).sum := by
    intro f
    rw [List.sum_eq_foldl, List.foldl_map]
  have times : ∀ (r : Rule) (tried : List Rule),
      (tried.map fun r' => if r = r' then 1 else 0).sum = tried.count r := by
    intro r tried
    induction tried with
    | nil => rfl
    | cons q tried ih =>
      rw [List.map_cons, List.sum_cons, ih, List.count_cons, Nat.add_comm]
      simp only [beq_iff_eq, eq_comm (a := r)]
  rw [total]
  induction ps with
  | nil => simp [count, Sweep.changes]
  | cons part ps ih =>
    have later := ih fun r h member => inside r h (List.mem_cons_of_mem _ member)
    cases part with
    | kept c => simpa only [count_kept, changes_kept] using later
    | changed r h =>
      have once := List.count_eq_one_of_mem nodup (inside r h List.mem_cons_self)
      simp only [count_changed, changes_changed, List.sum_map_add, times, once, later]

theorem changes_ofPass (nodup : rules.Nodup) (t : Text) :
    (ofPass rules t).changes = Sweep.changes (parts Rule.hit? rules t) := by
  have inside : ∀ r h, .changed r h ∈ parts Rule.hit? rules t → r ∈ rules := by
    intro r h member
    obtain ⟨x, -, found⟩ := exists_of_changed_mem member
    exact (first?_eq_some found).1
  rw [← foldl_count nodup inside, Updated.changes, ofPass, List.foldl_filterMap]
  congr 1
  funext n r
  by_cases idle : count r (parts Rule.hit? rules t) = 0
  · simp [idle]
  · simp [idle]

end Updated

end Renewal
