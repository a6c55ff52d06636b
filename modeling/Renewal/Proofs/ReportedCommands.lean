import Renewal.Proofs.Detection
import Renewal.Proofs.ServerRules

/-! # Reported commands are replaced

A report and an update look for commands in different ways. Still, where a command is detected for
which there is a rule, that rule takes something. So the rule is applied, and no such command is
detected in what an update leaves.
-/

namespace Renewal

open Sweep

/-- A name as a pattern writes it: any white space may stand for a space. -/
def writtenName (n : Text) : Text :=
  n.flatMap fun c => if c = (' ' : CodePoint) then "\\s+" else [c]

variable {t n : Text} {r : Rule}

theorem space_not_mem_writtenName (n : Text) : (' ' : CodePoint) ∉ writtenName n := by
  intro member
  obtain ⟨c, -, member⟩ := List.mem_flatMap.mp member
  split at member
  · revert member
    decide
  · rename_i other
    exact other (List.mem_singleton.mp member).symm

theorem writtenName_eq_self (solid : ∀ c ∈ n, c ≠ (' ' : CodePoint)) : writtenName n = n := by
  have each : ∀ c ∈ n, (if c = (' ' : CodePoint) then ("\\s+" : Text) else [c]) = [c] :=
    fun c member => if_neg (solid c member)
  rw [writtenName, List.flatMap_congr each]
  exact List.flatMap_singleton' n

/-- The name of a command is written as the pattern of a rule for it. -/
theorem writtenName_phrase {p : Phrase} (first : ∀ c ∈ p.first, c.isWord = true)
    (second : ∀ c ∈ p.second, c.isWord = true) :
    writtenName (p.first ++ if p.second = [] then [] else (" " : Text) ++ p.second) = p.source := by
  have solid : ∀ {w : Text}, (∀ c ∈ w, c.isWord = true) → ∀ c ∈ w, c ≠ (' ' : CodePoint) := by
    rintro w words c member rfl
    have word := words _ member
    revert word
    decide
  have append : ∀ a b, writtenName (a ++ b) = writtenName a ++ writtenName b := by
    intro a b
    exact List.flatMap_append
  rw [append, writtenName_eq_self (solid first), Phrase.source]
  by_cases single : p.second = []
  · simp only [single, ↓reduceIte]
    rfl
  · simp only [single, ↓reduceIte, append, writtenName_eq_self (solid second)]
    rfl

/-- The words of a command can be read off its pattern. -/
theorem phrase_of_source {p : Phrase} (first : ∀ c ∈ p.first, c.isWord = true)
    (second : ∀ c ∈ p.second, c.isWord = true) (same : r.pattern = p.source) :
    r.phrase = ⟨p.first, p.second, r.wholeWord, r.replacement⟩ := by
  rw [Rule.phrase, same, Phrase.source, List.takeWhile_append_of_pos first,
    List.dropWhile_append_of_pos first]
  by_cases single : p.second = []
  · simp [single]
  · have stop : ("\\s+" ++ p.second : Text).takeWhile CodePoint.isWord = [] := rfl
    have whole : ("\\s+" ++ p.second : Text).dropWhile CodePoint.isWord = "\\s+" ++ p.second := rfl
    simp only [single, ↓reduceIte]
    rw [stop, whole, List.append_nil, show ("\\s+" ++ p.second : Text).drop 3 = p.second from rfl,
      List.takeWhile_eq_self_iff.mpr second]

theorem ne_permissionRule (same : r.pattern = writtenName n) : r ≠ RuleSet.permissionRule := by
  rintro rfl
  apply space_not_mem_writtenName n
  rw [← same]
  decide

/-- Where a command is detected, the rule for it takes something. -/
theorem hit?_of_mem_detectCommands (member : n ∈ detectCommands t)
    (listed : r ∈ RuleSet.serverRules) (same : r.pattern = writtenName n) :
    ∃ u x h, t = u ++ x ∧ r.hit? x = some h := by
  obtain ⟨heuristic, detected⟩ := mem_detectCommands.mp member
  obtain ⟨w, w', x, stands⟩ := (Heuristic.mem_detect_iff.mp detected).stands
  have first : ∀ c ∈ w, c.isWord = true :=
    fun c member => Heuristic.isWord_of_letters (stands.isFirst.inside c member)
  have second : ∀ c ∈ w', c.isWord = true :=
    fun c member => Heuristic.isWord_of_letters (stands.isSecond c member)
  have source : r.pattern = Phrase.source ⟨w, w', r.wholeWord, r.replacement⟩ := by
    rw [same, stands.name]
    exact writtenName_phrase (p := ⟨w, w', r.wholeWord, r.replacement⟩) first second
  obtain ⟨h, takes⟩ := stands.takes r.wholeWord r.replacement
  obtain ⟨u, cut⟩ := stands.place
  refine ⟨u, x, h, cut.symm, ?_⟩
  rw [RuleSet.hit?_of_ne listed (ne_permissionRule same), phrase_of_source first second source]
  exact takes

/-- All rules but the one for permissions are for a name. -/
theorem exists_writtenName_iff (listed : r ∈ RuleSet.serverRules) :
    (∃ n, r.pattern = writtenName n) ↔ r ≠ RuleSet.permissionRule := by
  constructor
  · rintro ⟨n, same⟩
    exact ne_permissionRule same
  · intro other
    have proper := (RuleSet.tame r listed).proper
    have plain := (RuleSet.tame r listed).shape.resolve_left other
    refine ⟨_, plain.1.trans (writtenName_phrase ?_ ?_).symm⟩
    · exact fun c member => proper.words c (List.mem_append_left _ member)
    · exact fun c member => proper.words c (List.mem_append_right _ member)

/-- An update leaves no command that is detected and for which there is a rule; all rules but the
one for permissions are for such a command. -/
theorem update_clears_report :
    (∀ r ∈ RuleSet.server.rules,
      (∃ n, r.pattern = writtenName n) ↔ r ≠ RuleSet.permissionRule) ∧
    ∀ t, ∃ u, update RuleSet.server.rules t = .ok u ∧
      ∀ n ∈ detectCommands u.text, ∀ r ∈ RuleSet.server.rules, r.pattern ≠ writtenName n := by
  refine ⟨fun r => exists_writtenName_iff, fun t => ⟨_, RuleSet.update_server t, ?_⟩⟩
  intro n member r listed same
  obtain ⟨u, x, h, cut, takes⟩ := hit?_of_mem_detectCommands member listed same
  have free := RuleSet.orderly.settled (fun _ => id) listed
    (fun r' listed' => RuleSet.clear_of_ne listed' listed (ne_permissionRule same)) cut
  rw [takes] at free
  cases free

theorem update_clears_report_copy :
    ("ns_cp" : Text) ∈ detectCommands "ns_cp $a $b" ∧
    ∃ u, update RuleSet.server.rules "ns_cp $a $b" = .ok u ∧
      ("ns_cp" : Text) ∉ detectCommands u.text := by
  refine ⟨mem_detectCommands.mpr ⟨.argument, Heuristic.mem_detect.mpr (by decide +kernel)⟩, ?_⟩
  obtain ⟨u, updated, free⟩ := update_clears_report.2 "ns_cp $a $b"
  exact ⟨u, updated, fun member =>
    free _ member ⟨"ns_cp", "file copy", true⟩ (by decide +kernel) (by decide +kernel)⟩

/-- A rule is applied at least once where the command it is for is detected. -/
theorem update_applies_reported (t : Text) :
    ∃ u, update RuleSet.server.rules t = .ok u ∧
      ∀ n ∈ detectCommands t, ∀ r ∈ RuleSet.server.rules, r.pattern = writtenName n →
        ∃ k, 1 ≤ k ∧ (r, k) ∈ u.applied := by
  refine ⟨_, RuleSet.update_server t, ?_⟩
  intro n member r listed same
  obtain ⟨u, x, h, rfl, takes⟩ := hit?_of_mem_detectCommands member listed same
  apply Updated.mem_applied_ofPass listed
  apply RuleSet.orderly.count_pos (fun _ => id) listed takes
  intro r' listed' found
  obtain ⟨h', takes'⟩ := Option.ne_none_iff_exists'.mp found
  exact RuleSet.eq_of_hit? listed' listed takes' takes

theorem update_applies_reported_join :
    ("ns_thread join" : Text) ∈ detectCommands "ns_chmod f 644\nns_thread  join $id" ∧
    ∃ u, update RuleSet.server.rules "ns_chmod f 644\nns_thread  join $id" = .ok u ∧
      ∃ k, 1 ≤ k ∧ (⟨"ns_thread\\s+join", "ns_thread wait", true⟩, k) ∈ u.applied := by
  have member : ("ns_thread join" : Text) ∈
      detectCommands "ns_chmod f 644\nns_thread  join $id" :=
    mem_detectCommands.mpr ⟨.subcommand, Heuristic.mem_detect.mpr (by decide +kernel)⟩
  obtain ⟨u, updated, applies⟩ := update_applies_reported "ns_chmod f 644\nns_thread  join $id"
  exact ⟨member, u, updated, applies _ member _ (by decide +kernel) (by decide +kernel)⟩

end Renewal
