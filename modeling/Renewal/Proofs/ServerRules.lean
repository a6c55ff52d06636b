import Mathlib.Data.List.Pairwise
import Renewal.Proofs.PermissionCall
import Renewal.Proofs.UpdatePass
import Renewal.Rule.Server

/-! # The rules for server scripts do not get in each other's way

Each rule looks for a command, but for the one that sets permissions, which also looks at the
arguments. What two rules take does not overlap, and what a rule writes holds no command for
another, whatever stands around it. So an update with these rules is a single pass.
-/

namespace Renewal

open Sweep

/-- The pattern for a command as it is written. -/
def Phrase.source (p : Phrase) : Text :=
  p.first ++ if p.second = [] then [] else ("\\s+" : Text) ++ p.second

namespace Rule

/-- The command with which the pattern of a rule begins. -/
def phrase (r : Rule) : Phrase where
  first := r.pattern.takeWhile CodePoint.isWord
  second := ((r.pattern.dropWhile CodePoint.isWord).drop 3).takeWhile CodePoint.isWord
  wholeWord := r.wholeWord
  output := r.replacement

/-- Whether a rule can be read as a given substitution. -/
def readsAs (r : Rule) (pattern : Pattern) (template : Template) : Bool :=
  match r.read with
  | .error _ => false
  | .ok s => s.pattern = pattern && s.template = template

theorem read_eq {r : Rule} {pattern : Pattern} {template : Template}
    (reads : r.readsAs pattern template = true) : r.read = .ok ⟨pattern, template⟩ := by
  unfold readsAs at reads
  split at reads
  · cases reads
  · rename_i s found
    simp only [Bool.and_eq_true, decide_eq_true_eq] at reads
    rw [found, ← reads.1, ← reads.2]

/-- A rule that looks for a command and writes a given text. -/
def Plain (r : Rule) : Prop :=
  r.pattern = r.phrase.source ∧ r.readsAs r.phrase.pattern [.literal r.replacement] = true

instance : DecidablePred Plain := fun _ => inferInstanceAs (Decidable (_ ∧ _))

/-- Rules for two commands of which at most one can stand at a place. -/
def Apart (r r' : Rule) : Prop :=
  r.phrase.first = r'.phrase.first → r.wholeWord = true ∧ r'.wholeWord = true ∧
    r.phrase.second ≠ [] ∧ r'.phrase.second ≠ [] ∧ r.phrase.second ≠ r'.phrase.second

instance : DecidableRel Apart := fun _ _ => inferInstanceAs (Decidable (_ → _))

instance : Std.Symm Apart where
  symm r r' apart same := by
    obtain ⟨whole, whole', double, double', second⟩ := apart same.symm
    exact ⟨whole', whole, double', double, second.symm⟩

end Rule

namespace RuleSet

/-- The rule for a call that sets permissions. -/
def permissionRule : Rule where
  pattern := "ns_chmod\\s+([a-zA-Z$\"]+) +([0-9]+)"
  replacement := "file attributes \\1 -permissions \\2"

/-- The start of the name of a command. -/
def ns : Text := "ns_"

/-- How the texts that the rules write begin. -/
def onsets : List (CodePoint × CodePoint) := [('n', 's'), ('f', 'i'), ('f', 'c')]

/-- What can be read off a rule: it is for a command or sets permissions, and in the text it writes
no command of the table can be read. -/
structure Tame (r : Rule) : Prop where
  shape : r = permissionRule ∨ r.Plain
  proper : r.phrase.Proper
  named : ns <+: r.phrase.first
  onset : ∃ o ∈ onsets, [o.1, o.2] <+: r.replacement
  lacks : r ≠ permissionRule → ∀ o ∈ onsets, r.phrase.Lacks o.1 o.2
  clashes : r ≠ permissionRule → ∀ k < r.replacement.length,
    ¬ns <+: r.replacement.drop k ∧ ¬r.replacement.drop k <+: ns ∨
      ∀ r' ∈ serverRules, r'.phrase.clashes (r.replacement.drop k) = true

instance : DecidablePred Tame := fun r =>
  decidable_of_iff ((r = permissionRule ∨ r.Plain) ∧ r.phrase.Proper ∧ ns <+: r.phrase.first ∧
    (∃ o ∈ onsets, [o.1, o.2] <+: r.replacement) ∧
    (r ≠ permissionRule → ∀ o ∈ onsets, r.phrase.Lacks o.1 o.2) ∧
    (r ≠ permissionRule → ∀ k < r.replacement.length,
      ¬ns <+: r.replacement.drop k ∧ ¬r.replacement.drop k <+: ns ∨
        ∀ r' ∈ serverRules, r'.phrase.clashes (r.replacement.drop k) = true))
    ⟨fun ⟨shape, proper, named, onset, lacks, clashes⟩ =>
      ⟨shape, proper, named, onset, lacks, clashes⟩,
      fun tame => ⟨tame.shape, tame.proper, tame.named, tame.onset, tame.lacks, tame.clashes⟩⟩

theorem tame : ∀ r ∈ serverRules, Tame r := by
  decide +kernel

theorem pairwise_apart : serverRules.Pairwise Rule.Apart := by
  decide +kernel

/-- The rule for a copy between channels. It writes a lone word, which can be taken for the name of
a file. -/
def channelCopyRule : Rule where
  pattern := "ns_cpfp"
  replacement := "fcopy"

theorem permissionRule_mem : permissionRule ∈ serverRules :=
  List.mem_of_getElem? (show serverRules[3]? = some permissionRule from rfl)

theorem channelCopyRule_mem : channelCopyRule ∈ serverRules :=
  List.mem_of_getElem? (show serverRules[6]? = some channelCopyRule from rfl)

/-- All other rules write a name with an underscore, or two words. -/
theorem replacement_begins : ∀ r ∈ serverRules, r ≠ channelCopyRule →
    ns <+: r.replacement ∨ ∃ c ∈ ("acdlm" : Text), ("file " ++ [c] : Text) <+: r.replacement := by
  decide +kernel

theorem pairwise_order : serverRules.Pairwise fun r r' =>
    r' = permissionRule → r ≠ channelCopyRule := by
  decide +kernel

theorem read_permissionRule :
    permissionRule.read = .ok ⟨PermissionCall.pattern, PermissionCall.template⟩ :=
  Rule.read_eq (by decide +kernel)

variable {r r' : Rule} {t x : Text} {h h' : Hit} {k : Nat}

theorem hit?_permissionRule : permissionRule.hit? t = some h ↔ PermissionCall.Takes t h := by
  rw [Rule.hit?_eq read_permissionRule, PermissionCall.hit?_eq_some_iff]

theorem hit?_of_ne (member : r ∈ serverRules) (other : r ≠ permissionRule) :
    r.hit? t = some h ↔ r.phrase.Takes t h := by
  have plain := (tame r member).shape.resolve_left other
  rw [Rule.hit?_eq (Rule.read_eq plain.2)]
  exact Phrase.hit?_eq_some_iff (tame r member).proper fun _ => List.append_nil _

theorem applicable (member : r ∈ serverRules) : r.Applicable := by
  rcases (tame r member).shape with rfl | plain
  · exact ⟨_, read_permissionRule, PermissionCall.reads.steady⟩
  · exact ⟨_, Rule.read_eq plain.2, (Phrase.reads (tame r member).proper).steady⟩

/-- Where a rule takes something, the command of its pattern can be read. -/
theorem takes_phrase (member : r ∈ serverRules) (takes : r.hit? t = some h) :
    ∃ h, r.phrase.Takes t h := by
  by_cases permission : r = permissionRule
  · subst permission
    have same : permissionRule.phrase =
        ⟨PermissionCall.name, [], true, permissionRule.replacement⟩ := by
      decide +kernel
    rw [same]
    exact ⟨_, (hit?_permissionRule.mp takes).named _⟩
  · exact ⟨h, (hit?_of_ne member permission).mp takes⟩

theorem starts_of_hit (member : r ∈ serverRules) (takes : r.hit? t = some h) : ns <+: t := by
  obtain ⟨_, gap, x, rfl, -, -, -⟩ := takes_phrase member takes
  rw [Phrase.withGap, List.append_assoc]
  exact (tame r member).named.trans (List.prefix_append _ _)

/-- What a rule writes begins as its replacement does. -/
theorem output_onset (member : r ∈ serverRules) (takes : r.hit? t = some h) :
    ∃ o ∈ onsets, [o.1, o.2] <+: h.output := by
  by_cases permission : r = permissionRule
  · subst permission
    obtain ⟨call, -, -, -, -, rfl⟩ := hit?_permissionRule.mp takes
    exact ⟨('f', 'i'), by decide,
      "le attributes " ++ (call.file ++ (" -permissions " ++ call.mode)), rfl⟩
  · obtain ⟨-, -, -, -, -, rfl⟩ := (hit?_of_ne member permission).mp takes
    exact (tame r member).onset

theorem beginsWord_of_onset {o : CodePoint × CodePoint} (member : o ∈ onsets)
    (begins : [o.1, o.2] <+: x) : x.beginsWord = true := by
  have word : ∀ o ∈ onsets, o.1.isWord = true := by decide
  obtain ⟨rest, rfl⟩ := begins
  exact word o member

theorem taken_isPrefix (member : r ∈ serverRules) (takes : r.hit? t = some h) :
    h.taken ≠ [] ∧ h.taken <+: t := by
  by_cases permission : r = permissionRule
  · subst permission
    obtain ⟨call, x, -, rfl, -, rfl⟩ := hit?_permissionRule.mp takes
    exact ⟨by simp [PermissionCall.text, show PermissionCall.name ≠ [] by decide],
      List.prefix_append _ _⟩
  · obtain ⟨gap, x, rfl, -, -, rfl⟩ := (hit?_of_ne member permission).mp takes
    exact ⟨by simp [Phrase.withGap, (tame r member).proper.written], List.prefix_append _ _⟩

/-- No command begins inside what a rule takes. -/
theorem not_starts_drop (member : r ∈ serverRules) (takes : r.hit? t = some h) (later : 0 < k)
    (within : k < h.taken.length) : ¬ns <+: t.drop k := by
  by_cases permission : r = permissionRule
  · subst permission
    exact (hit?_permissionRule.mp takes).not_starts later within
  · have pair := ((hit?_of_ne member permission).mp takes).not_pair
      ((tame r member).lacks permission ('n', 's') (by decide)) (tame r member).proper later within
    intro start
    exact pair ((show [('n' : CodePoint), 's'] <+: ns by decide).trans start)

theorem hit?_nearby {y : Text} (member : r ∈ serverRules) (takes : r.hit? (h.taken ++ x) = some h)
    (same : x.beginsWord = y.beginsWord) : r.hit? (h.taken ++ y) = some h := by
  by_cases permission : r = permissionRule
  · subst permission
    exact hit?_permissionRule.mpr ((hit?_permissionRule.mp takes).nearby same)
  · exact (hit?_of_ne member permission).mpr
      (((hit?_of_ne member permission).mp takes).nearby same)

/-- No command can be read in what a rule writes. -/
theorem hit?_output (member : r ∈ serverRules) (member' : r' ∈ serverRules)
    (takes : r.hit? t = some h) (within : k < h.output.length) (x : Text) :
    r'.hit? (h.output.drop k ++ x) = none := by
  by_contra found
  obtain ⟨h', takes'⟩ := Option.ne_none_iff_exists'.mp found
  have start := starts_of_hit member' takes'
  by_cases permission : r = permissionRule
  · subst permission
    exact (hit?_permissionRule.mp takes).output_not_starts within x start
  · obtain ⟨gap, y, -, -, -, rfl⟩ := (hit?_of_ne member permission).mp takes
    rcases (tame r member).clashes permission k within with ⟨notBefore, notAfter⟩ | clash
    · obtain ⟨rest, same⟩ := start
      rcases Text.isPrefix_or_isPrefix same with before | after
      · exact notBefore before
      · exact notAfter after
    · obtain ⟨h', reads⟩ := takes_phrase member' takes'
      exact Phrase.not_takes_of_clashes (tame r' member').proper (clash r' member') reads

/-- The rules for server scripts do not get in each other's way. -/
theorem orderly : Orderly Rule.hit? {r | r ∈ serverRules} where
  proper := taken_isPrefix
  begins member takes := by
    obtain ⟨o, onset, begins⟩ := output_onset member takes
    obtain ⟨rest, rfl⟩ := starts_of_hit member takes
    exact ⟨rfl, beginsWord_of_onset onset begins⟩
  alone member member' takes later within := by
    by_contra found
    obtain ⟨h', takes'⟩ := Option.ne_none_iff_exists'.mp found
    exact not_starts_drop member takes later within (starts_of_hit member' takes')
  nearby := hit?_nearby
  barren x member member' takes within := hit?_output member member' takes within x

theorem clear_of_ne (member : r ∈ serverRules) (member' : r' ∈ serverRules)
    (other : r' ≠ permissionRule) : Clear Rule.hit? r r' := by
  intro t h u x h' takes written takes'
  by_contra across
  obtain ⟨o, onset, begins⟩ := output_onset member takes
  have reads := (hit?_of_ne member' other).mp takes'
  apply reads.not_pair ((tame r' member').lacks other o onset) (tame r' member').proper
    (List.length_pos_of_ne_nil written) (Nat.lt_of_not_le across)
  rw [List.drop_left]
  exact begins.trans (List.prefix_append _ _)

/-- Where a rule writes, the one for permissions finds nothing that goes on into it. -/
theorem clear_permissionRule (member : r ∈ serverRules) (other : r ≠ channelCopyRule) :
    Clear Rule.hit? r permissionRule := by
  intro t h u x h' takes written takes'
  by_contra across
  have reads := hit?_permissionRule.mp takes'
  have within : u.length < h'.taken.length := Nat.lt_of_not_le across
  have letters : ∀ c ∈ ("acdlm" : Text), PermissionCall.fileLetters.contains c = true := by decide
  have notFile : ∀ c ∈ ("acdlm" : Text), ¬("file " ++ [c] : Text) <+: h.output := by
    intro c letter begins
    apply reads.not_file within (letters c letter)
    rw [List.drop_left]
    exact begins.trans (List.prefix_append _ _)
  by_cases permission : r = permissionRule
  · subst permission
    obtain ⟨call, -, -, -, -, rfl⟩ := hit?_permissionRule.mp takes
    exact notFile 'a' (by decide)
      ⟨"ttributes " ++ (call.file ++ (" -permissions " ++ call.mode)), rfl⟩
  · obtain ⟨gap, y, -, -, -, rfl⟩ := (hit?_of_ne member permission).mp takes
    rcases replacement_begins r member other with begins | ⟨c, letter, begins⟩
    · apply reads.not_starts (List.length_pos_of_ne_nil written) within
      rw [List.drop_left]
      exact begins.trans (List.prefix_append _ _)
    · exact notFile c letter begins

/-- The lone word that a copy between channels becomes completes a call. -/
example : (permissionRule.hit? ("ns_chmod " ++ (channelCopyRule.replacement ++ " 644"))).isSome =
    true := by
  decide +kernel

theorem pairwise_clear : serverRules.Pairwise (Clear Rule.hit?) := by
  refine pairwise_order.imp_of_mem ?_
  intro r r' member member' earlier
  by_cases permission : r' = permissionRule
  · rw [permission]
    exact clear_permissionRule member (earlier permission)
  · exact clear_of_ne member member' permission

theorem nodup_serverRules : serverRules.Nodup := by
  refine pairwise_apart.imp ?_
  rintro r r' apart rfl
  exact (apart rfl).2.2.2.2 rfl

/-- At most one rule takes something at a place. -/
theorem eq_of_hit? (member : r ∈ serverRules) (member' : r' ∈ serverRules)
    (takes : r.hit? t = some h) (takes' : r'.hit? t = some h') : r = r' := by
  obtain ⟨_, reads⟩ := takes_phrase member takes
  obtain ⟨_, reads'⟩ := takes_phrase member' takes'
  have proper := (tame r member).proper
  have proper' := (tame r' member').proper
  have first : r.phrase.first = r'.phrase.first :=
    (reads.takeWhile_eq proper).symm.trans (reads'.takeWhile_eq proper')
  by_contra different
  have apart : Rule.Apart r r' :=
    pairwise_apart.forall member member' different
  obtain ⟨whole, whole', double, double', second⟩ := apart first
  exact second (reads.second_eq reads' proper proper' whole whole' first double double')

/-- An update with the rules for server scripts is a single pass. -/
theorem update_server (t : Text) : update server.rules t = .ok (.ofPass serverRules t) :=
  update_eq_ofPass orderly (fun _ => id) (fun _ => applicable) nodup_serverRules pairwise_clear t

end RuleSet

end Renewal
