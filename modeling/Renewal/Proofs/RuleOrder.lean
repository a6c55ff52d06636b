import Renewal.Proofs.MatchPlaces

/-! # The order of the rules

The rules for server scripts work on what the rules before them have left, yet their order hardly
matters: at most one of them takes something at a place, and only the copy between channels can
write something that another takes, the one for permissions. In any order that keeps the one for
permissions before it, the rules leave the same text and apply as often.
-/

namespace Renewal

open Sweep

namespace RuleSet

variable {rules : List Rule}

/-- Of two rules, the one that comes first in a table does not come after the other. -/
theorem pairwise_of_sublist {a b : Rule} (nodup : rules.Nodup) (order : [a, b].Sublist rules) :
    rules.Pairwise fun r r' => r' = a → r ≠ b := by
  rw [List.pairwise_iff_forall_sublist]
  rintro r r' later rfl rfl
  obtain ⟨front, back, rfl, first, second⟩ := List.cons_sublist_iff.mp order
  rw [List.singleton_sublist] at second
  obtain ⟨-, -, apart⟩ := List.nodup_append.mp nodup
  obtain ⟨early, late, cut, inFront, inBack⟩ := List.sublist_append_iff.mp later
  -- The other stands in the back part only, and the first one would have to come after it there.
  cases early with
  | nil =>
    have again : r' ∈ back := inBack.subset (by rw [← List.nil_append late, ← cut]; simp)
    exact apart r' first r' again rfl
  | cons c early =>
    obtain ⟨rfl, -⟩ := List.cons.inj cut
    exact apart r (inFront.subset (by simp)) r second rfl

/-- In any order the same rule takes something at a place. -/
theorem first?_perm (perm : rules.Perm serverRules) (x : Text) :
    first? Rule.hit? rules x = first? Rule.hit? serverRules x := by
  cases found : first? Rule.hit? rules x with
  | none =>
    symm
    rw [first?_eq_none] at found ⊢
    exact fun r member => found r (perm.mem_iff.mpr member)
  | some pair =>
    obtain ⟨member, takes⟩ := first?_eq_some found
    exact (first?_of_hit? (perm.mem_iff.mp member) takes).symm

theorem pairwise_clear_of_order (perm : rules.Perm serverRules)
    (order : [permissionRule, channelCopyRule].Sublist rules) :
    rules.Pairwise (Clear Rule.hit?) := by
  have nodup : rules.Nodup := perm.nodup_iff.mpr nodup_serverRules
  refine (pairwise_of_sublist nodup order).imp_of_mem ?_
  intro r r' member member' earlier
  rw [perm.mem_iff] at member member'
  by_cases permission : r' = permissionRule
  · rw [permission]
    exact clear_permissionRule member (earlier permission)
  · exact clear_of_ne member member' permission

/-- An update with the rules in such an order is a single pass. -/
theorem update_of_order (perm : rules.Perm serverRules)
    (order : [permissionRule, channelCopyRule].Sublist rules) (t : Text) :
    update rules t = .ok (.ofPass rules t) :=
  update_eq_ofPass orderly (fun _ => perm.mem_iff.mp)
    (fun _ member => applicable (perm.mem_iff.mp member))
    (perm.nodup_iff.mpr nodup_serverRules) (pairwise_clear_of_order perm order) t

theorem applied_perm (perm : rules.Perm serverRules) (t : Text) :
    (Updated.ofPass rules t).applied.Perm (Updated.ofPass serverRules t).applied := by
  simp only [Updated.ofPass, parts_congr (first?_perm perm) t]
  exact perm.filterMap _

end RuleSet

/-- The rules for server scripts can be applied in any order in which the one for permissions comes
before the one for a copy between channels: the text that they leave is the same, and so is how
often each of them applies. -/
theorem update_perm {rules : List Rule} (perm : rules.Perm RuleSet.server.rules)
    (order : [RuleSet.permissionRule, RuleSet.channelCopyRule].Sublist rules) (t : Text) :
    ∃ u v, update rules t = .ok u ∧ update RuleSet.server.rules t = .ok v ∧
      u.text = v.text ∧ u.changes = v.changes ∧ u.applied.Perm v.applied := by
  have same := parts_congr (RuleSet.first?_perm perm) t
  refine ⟨_, _, RuleSet.update_of_order perm order t, RuleSet.update_server t, ?_, ?_,
    RuleSet.applied_perm perm t⟩
  · rw [Updated.ofPass, Updated.ofPass, sweep, sweep, same]
  · rw [Updated.changes_ofPass (perm.nodup_iff.mpr RuleSet.nodup_serverRules),
      Updated.changes_ofPass RuleSet.nodup_serverRules, same]

theorem update_perm_reverse :
    let rules := RuleSet.permissionRule ::
      (RuleSet.server.rules.filter (· ≠ RuleSet.permissionRule)).reverse
    let t : Text := "ns_chmod ns_cpfp 644; ns_chmod $f 644; ns_thread  getid; ns_set newns_cp"
    rules.Perm RuleSet.server.rules ∧
    [RuleSet.permissionRule, RuleSet.channelCopyRule].Sublist rules ∧
    ∃ u v, update rules t = .ok u ∧ update RuleSet.server.rules t = .ok v ∧
      u.text = v.text ∧ u.changes = v.changes ∧ u.applied.Perm v.applied := by
  intro rules t
  have rest : RuleSet.serverRules.filter (· ≠ RuleSet.permissionRule) =
      RuleSet.serverRules.erase RuleSet.permissionRule := by
    rw [RuleSet.nodup_serverRules.erase_eq_filter]
    apply List.filter_congr
    intro rule _
    by_cases same : rule = RuleSet.permissionRule <;> simp [same]
  have perm : rules.Perm RuleSet.server.rules := by
    refine ((List.reverse_perm _).cons _).trans ?_
    rw [show RuleSet.server.rules = RuleSet.serverRules from rfl, rest]
    exact (List.perm_cons_erase RuleSet.permissionRule_mem).symm
  have order : [RuleSet.permissionRule, RuleSet.channelCopyRule].Sublist rules := by
    apply List.Sublist.cons_cons
    rw [List.singleton_sublist, List.mem_reverse]
    exact List.mem_filter.mpr ⟨RuleSet.channelCopyRule_mem, by decide⟩
  exact ⟨perm, order, update_perm perm order t⟩

end Renewal
