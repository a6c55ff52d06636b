import Renewal.Proofs.Detection
import Renewal.Report
import Renewal.Rule.Server

/-! # Tracked commands are reported

A name can be detected if it is spelled as the heuristics know commands, in one word or in two with
a space between them, and then it is detected wherever it stands in brackets. The tables for server
scripts also list a few names that are spelled otherwise; all others are reported.
-/

namespace Renewal

open Pattern

variable {n t w : Text}

namespace Heuristic

instance (set : CharClass) : DecidablePred (IsRun set) := fun m =>
  decidable_of_iff (m ≠ [] ∧ ∀ c ∈ m, set.contains c = true)
    ⟨fun ⟨written, inside⟩ => ⟨written, inside⟩, fun run => ⟨run.written, run.inside⟩⟩

theorem isName_iff : IsName w ↔ ("ns" : Text) <+: w ∧ IsRun letters (w.drop 2) := by
  constructor
  · rintro ⟨rest, run, rfl⟩
    exact ⟨List.prefix_append _ _, run⟩
  · rintro ⟨⟨rest, rfl⟩, run⟩
    exact ⟨rest, run, rfl⟩

instance : DecidablePred IsName := fun _ =>
  decidable_of_iff _ isName_iff.symm

/-- The names that can be detected: of one word, or of two with a space between them. -/
def Spellable (n : Text) : Prop :=
  IsName n ∨ ∃ w w', IsName w ∧ IsRun letters w' ∧ n = w ++ ((" " : Text) ++ w')

/-- The first word of a name is all that comes before the space. -/
theorem spellable_iff : Spellable n ↔ IsName n ∨ IsName (n.takeWhile letters.contains) ∧
    (" " : Text) <+: n.dropWhile letters.contains ∧
    IsRun letters ((n.dropWhile letters.contains).drop 1) := by
  apply or_congr_right
  constructor
  · rintro ⟨w, w', isName, run, rfl⟩
    have first : (w ++ ((" " : Text) ++ w')).takeWhile letters.contains = w := by
      rw [List.takeWhile_append_of_pos isName.isRun.inside]
      exact List.append_nil w
    have others : (w ++ ((" " : Text) ++ w')).dropWhile letters.contains = (" " : Text) ++ w' :=
      List.dropWhile_append_of_pos isName.isRun.inside
    rw [first, others]
    exact ⟨isName, List.prefix_append _ _, run⟩
  · rintro ⟨isName, ⟨w', space⟩, run⟩
    rw [← space] at run
    refine ⟨_, w', isName, run, ?_⟩
    rw [space, List.takeWhile_append_dropWhile]

instance : DecidablePred Spellable := fun _ =>
  decidable_of_iff _ spellable_iff.symm

/-- Nothing else is ever detected. -/
theorem Finds.spellable {h : Heuristic} (finds : h.Finds t n) : Spellable n := by
  cases h with
  | bracketed =>
    obtain ⟨-, -, -, -, isName, -⟩ := finds
    exact .inl isName
  | argument =>
    obtain ⟨-, -, -, -, -, -, isName, -⟩ := finds
    exact .inl isName
  | subcommand =>
    obtain ⟨-, -, w, -, w', -, -, isName, -, run, -, -, -, same⟩ := finds
    exact .inr ⟨w, w', isName, run, same⟩

end Heuristic

theorem spellable_of_mem_detectCommands (detected : n ∈ detectCommands t) :
    Heuristic.Spellable n := by
  obtain ⟨h, member⟩ := mem_detectCommands.mp detected
  exact (Heuristic.mem_detect_iff.mp member).spellable

/-- What can be detected is detected in brackets. -/
theorem mem_detectCommands_of_spellable (spellable : Heuristic.Spellable n) (u v : Text) :
    n ∈ detectCommands (u ++ ("[" : Text) ++ n ++ ("]" : Text) ++ v) := by
  rw [mem_detectCommands]
  rcases spellable with isName | ⟨w, w', isName, run, rfl⟩
  · refine ⟨.bracketed, Heuristic.mem_detect_iff.mpr ⟨u, [], [], v, isName, ?_⟩⟩
    simp
  · refine ⟨.subcommand, Heuristic.mem_detect_iff.mpr
      ⟨u ++ ("[" : Text), [], w, " ", w', ("]" : Text) ++ v, ?_, isName, by decide, run, ?_⟩⟩
    · exact .inr (.inr (List.getLast?_eq_some_iff.mpr ⟨u, rfl⟩))
    · exact ⟨by simp, rfl, by simp, rfl⟩

namespace Report

/-- Each finding of a report has its line. -/
theorem mem_lines (r : Report) (n : Text) :
    (n ∈ r.deprecated → deprecatedLine n ∈ r.lines) ∧
    (n ∈ r.uncertain → uncertainLine n ∈ r.lines) ∧
    (n ∈ r.modernize → modernizeLine n ∈ r.lines) := by
  have shown : (n ∈ r.deprecated ∨ n ∈ r.uncertain ∨ n ∈ r.modernize) → r.hasFindings = true := by
    intro found
    simp only [hasFindings, Bool.not_and, Bool.or_eq_true, Bool.not_eq_true',
      List.isEmpty_eq_false_iff, or_assoc]
    exact found.imp List.ne_nil_of_mem (Or.imp List.ne_nil_of_mem List.ne_nil_of_mem)
  refine ⟨fun found => ?_, fun found => ?_, fun found => ?_⟩
  · rw [lines, if_pos (shown (.inl found))]
    simp [List.mem_map_of_mem found]
  · rw [lines, if_pos (shown (.inr (.inl found)))]
    simp [List.mem_map_of_mem found]
  · rw [lines, if_pos (shown (.inr (.inr found)))]
    simp [List.mem_map_of_mem found]

end Report

namespace RuleSet

/-- The names in the tables that are spelled in a way in which no command is detected. -/
def unspellable : List Text := ([
  "Paren", "env", "getformdata", "issmallint", "ns_hmac_sha2", "ns_info url2file", "ns_sha2"] :
  List String).map Text.ofString

theorem filter_not_spellable :
    (server.deprecated ++ server.modernize).filter (fun n => ¬Heuristic.Spellable n) =
      unspellable := by
  decide +kernel

theorem mem_unspellable_iff : n ∈ unspellable ↔
    n ∈ server.deprecated ++ server.modernize ∧ ¬Heuristic.Spellable n := by
  rw [← filter_not_spellable, List.mem_filter, decide_eq_true_iff]

end RuleSet

/-- A tracked command is reported where it stands in brackets, whatever comes before and after. -/
theorem tracked_reported {n : Text} (spelled : n ∉ RuleSet.unspellable) (path u v : Text) :
    let report := Report.ofNames path
      (detectCommands (u ++ ("[" : Text) ++ n ++ ("]" : Text) ++ v)) RuleSet.server
    (n ∈ RuleSet.server.deprecated → Report.deprecatedLine n ∈ report.lines) ∧
    (n ∈ RuleSet.server.modernize → Report.modernizeLine n ∈ report.lines) := by
  have found : n ∈ RuleSet.server.deprecated ++ RuleSet.server.modernize →
      n ∈ Text.sortedSet (detectCommands (u ++ ("[" : Text) ++ n ++ ("]" : Text) ++ v)) := by
    intro tracked
    rw [Text.mem_sortedSet]
    apply mem_detectCommands_of_spellable
    by_contra otherwise
    exact spelled (RuleSet.mem_unspellable_iff.mpr ⟨tracked, otherwise⟩)
  constructor
  · intro deprecated
    apply (Report.mem_lines _ n).1
    exact List.mem_filter.mpr ⟨found (List.mem_append_left _ deprecated), by simpa using deprecated⟩
  · intro modernize
    apply (Report.mem_lines _ n).2.2
    exact List.mem_filter.mpr ⟨found (List.mem_append_right _ modernize), by simpa using modernize⟩

theorem tracked_reported_iget :
    ("ns_set iget" : Text) ∉ RuleSet.unspellable ∧
    ("ns_set iget" : Text) ∈ RuleSet.server.modernize ∧
    Report.modernizeLine "ns_set iget" ∈ (Report.ofNames "t.tcl"
      (detectCommands ("[ns_" ++ ("[" : Text) ++ "ns_set iget" ++ ("]" : Text) ++ "new"))
      RuleSet.server).lines := by
  have spelled : ("ns_set iget" : Text) ∉ RuleSet.unspellable := by decide +kernel
  have modernize : ("ns_set iget" : Text) ∈ RuleSet.server.modernize := by decide +kernel
  exact ⟨spelled, modernize, (tracked_reported spelled "t.tcl" "[ns_" "new").2 modernize⟩

/-- The other names in the tables are never detected; where one of them stands in brackets, nothing
is reported. -/
theorem env_not_reported :
    ("env" : Text) ∈ RuleSet.server.deprecated ∧
    (Report.ofNames "t.tcl" (detectCommands "[env]") RuleSet.server).lines = [] ∧
    ∀ n ∈ RuleSet.unspellable, n ∈ RuleSet.server.deprecated ++ RuleSet.server.modernize ∧
      ∀ t, n ∉ detectCommands t := by
  refine ⟨by decide +kernel, ?_, ?_⟩
  · have nothing : detectCommands "[env]" = [] := by
      rw [List.eq_nil_iff_forall_not_mem]
      intro n detected
      obtain ⟨h, member⟩ := mem_detectCommands.mp detected
      have none : (h.pattern.findAll "[env]").isEmpty = true := by
        cases h <;> decide +kernel
      rw [Heuristic.mem_detect, List.isEmpty_iff.mp none] at member
      cases member
    rw [nothing]
    simp [Report.ofNames, Report.lines, Report.hasFindings, Text.sortedSet]
  · intro n listed
    obtain ⟨tracked, otherwise⟩ := RuleSet.mem_unspellable_iff.mp listed
    exact ⟨tracked, fun t detected => otherwise (spellable_of_mem_detectCommands detected)⟩

end Renewal
