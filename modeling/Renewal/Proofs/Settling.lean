import Renewal.Proofs.ServerRules

/-! # Updates settle

An update leaves nothing for a rule that looks for a command, so a second update can only set
permissions. It finds a call to do so only where the first one has written the name of a command
that stands as an argument; what the second one writes gives rise to nothing more. So a third update
changes nothing.
-/

namespace Renewal

open Sweep

namespace RuleSet

variable {r : Rule} {t x : Text}

theorem free_of_ne (member : r ∈ serverRules) (other : r ≠ permissionRule)
    (inside : x <:+ sweep Rule.hit? serverRules t) : r.hit? x = none := by
  obtain ⟨u, cut⟩ := inside
  apply orderly.settled (fun _ => id) member _ cut.symm
  intro r' member'
  exact clear_of_ne member' member other

/-- After a pass in which no copy between channels was replaced, nothing is left to do. -/
theorem free_of_idle (idle : count channelCopyRule (parts Rule.hit? serverRules t) = 0)
    (member : r ∈ serverRules) (inside : x <:+ sweep Rule.hit? serverRules t) :
    r.hit? x = none := by
  by_cases permission : r = permissionRule
  · subst permission
    obtain ⟨u, cut⟩ := inside
    apply orderly.settled_of_idle (fun _ => id) member (by decide) idle _ cut.symm
    intro r' member' other
    exact clear_permissionRule member' other
  · exact free_of_ne member permission inside

/-- An update of a text in which no rule takes anything changes nothing. -/
theorem ofPass_of_free (free : ∀ r ∈ serverRules, ∀ x, x <:+ t → r.hit? x = none) :
    (Updated.ofPass serverRules t).changes = 0 ∧ (Updated.ofPass serverRules t).text = t := by
  constructor
  · rw [Updated.changes_ofPass nodup_serverRules]
    exact changes_eq_zero free
  · exact sweep_eq_self free

/-- A second update applies no rule but the one for permissions. -/
theorem eq_permissionRule_of_mem_applied {n : Nat}
    (applied : (r, n) ∈
      (Updated.ofPass serverRules (Updated.ofPass serverRules t).text).applied) :
    r = permissionRule := by
  obtain ⟨member, counted, taken⟩ := Updated.mem_applied_ofPass_iff.mp applied
  by_contra other
  apply taken
  rw [← counted]
  exact count_eq_zero_of_free fun x inside => free_of_ne member other inside

theorem ofPass_of_not_mem_applied
    (absent : ∀ n, (channelCopyRule, n) ∉ (Updated.ofPass serverRules t).applied) :
    let again := Updated.ofPass serverRules (Updated.ofPass serverRules t).text
    again.changes = 0 ∧ again.text = (Updated.ofPass serverRules t).text := by
  apply ofPass_of_free
  intro r member x inside
  apply free_of_idle _ member inside
  by_contra taken
  apply absent
  exact Updated.mem_applied_ofPass_iff.mpr ⟨channelCopyRule_mem, rfl, taken⟩

end RuleSet

/-- A second update applies at most the rule for permissions, and only after a copy between channels
was replaced; a third one changes nothing. -/
theorem update_settles (t : Text) :
    ∃ first second third,
      update RuleSet.server.rules t = .ok first ∧
      update RuleSet.server.rules first.text = .ok second ∧
      update RuleSet.server.rules second.text = .ok third ∧
      (∀ r n, (r, n) ∈ second.applied → r = RuleSet.permissionRule) ∧
      ((∀ n, (RuleSet.channelCopyRule, n) ∉ first.applied) → second.changes = 0) ∧
      third.changes = 0 ∧ third.text = second.text := by
  refine ⟨_, _, _, RuleSet.update_server _, RuleSet.update_server _, RuleSet.update_server _,
    fun r n => RuleSet.eq_permissionRule_of_mem_applied, ?_, ?_⟩
  · intro absent
    exact (RuleSet.ofPass_of_not_mem_applied absent).1
  · apply RuleSet.ofPass_of_not_mem_applied
    intro n applied
    have same := RuleSet.eq_permissionRule_of_mem_applied applied
    revert same
    decide

theorem update_settles_copy :
    ∃ first second,
      update RuleSet.server.rules "ns_chmod ns_cp 644" = .ok first ∧
      update RuleSet.server.rules first.text = .ok second ∧
      (∀ n, (RuleSet.channelCopyRule, n) ∉ first.applied) ∧ second.changes = 0 := by
  obtain ⟨first, second, -, once, twice, -, -, settled, -⟩ := update_settles "ns_chmod ns_cp 644"
  have absent : ∀ n, (RuleSet.channelCopyRule, n) ∉ first.applied := by
    rw [RuleSet.update_server] at once
    obtain rfl := Except.ok.inj once
    intro n applied
    obtain ⟨member, counted, taken⟩ := Updated.mem_applied_ofPass_iff.mp applied
    apply taken
    rw [← counted]
    apply count_eq_zero_of_free
    intro x inside
    by_contra found
    obtain ⟨h, takes⟩ := Option.ne_none_iff_exists'.mp found
    obtain ⟨_, gap, y, rfl, -⟩ := RuleSet.takes_phrase member takes
    -- The name of the command does not stand anywhere in the text.
    have stands : RuleSet.channelCopyRule.phrase.first <:+: ("ns_chmod ns_cp 644" : Text) := by
      rw [Phrase.withGap, List.append_assoc] at inside
      exact (List.prefix_append _ _).isInfix.trans inside.isInfix
    revert stands
    decide +kernel
  exact ⟨first, second, once, twice, absent, settled absent⟩

end Renewal
