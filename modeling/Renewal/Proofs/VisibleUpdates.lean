import Renewal.Proofs.PrintedLines
import Renewal.Proofs.ServerRules
import Renewal.Proofs.UnifiedDiff

/-! # Every update can be seen in a diff

An update that replaces something leaves a text that differs from the one before in more than white
space, so that a diff which ignores white space shows it (`update_shown_iff`). What takes the place
of a command differs from it at some place within both, with one exception: a name that is made
longer at its end. What is added there could only be made up for if the text went on with the same
letters again and again, up to a command that takes them back, but commands begin with another one.
-/

namespace Renewal

namespace Text

theorem squeeze_append (s t : Text) : (s ++ t).squeeze = s.squeeze ++ t.squeeze :=
  List.filter_append s t

theorem squeeze_cons_of_isBlank {c : CodePoint} (blank : c.isBlank = true) (t : Text) :
    squeeze (c :: t) = t.squeeze :=
  List.filter_cons_of_neg (by simp [blank])

theorem squeeze_cons_of_not_isBlank {c : CodePoint} (solid : c.isBlank = false) (t : Text) :
    squeeze (c :: t) = c :: t.squeeze :=
  List.filter_cons_of_pos (by simp [solid])

theorem squeeze_of_isWord {t : Text} (words : ∀ c ∈ t, c.isWord = true) : t.squeeze = t :=
  List.filter_eq_self.mpr fun c member => by simp [CodePoint.isBlank_of_isWord (words c member)]

theorem squeeze_of_isBlank {t : Text} (blank : ∀ c ∈ t, c.isBlank = true) : t.squeeze = [] :=
  List.filter_eq_nil_iff.mpr fun c member => by simp [blank c member]

/-- What remains of the lines of a text without white space is what remains of the text. -/
theorem flatten_map_squeeze_lines (t : Text) : (t.lines.map squeeze).flatten = t.squeeze := by
  conv_rhs => rw [← flatten_lines t]
  exact List.filter_flatten.symm

end Text

/-- What a command leaves of its text without white space. -/
theorem Phrase.squeeze_withGap {p : Phrase} {gap : Text} (proper : p.Proper)
    (isGap : p.IsGap gap) : (p.withGap gap).squeeze = p.first ++ p.second := by
  calc (p.withGap gap).squeeze = p.first.squeeze ++ (gap.squeeze ++ p.second.squeeze) := by
        rw [withGap, Text.squeeze_append, Text.squeeze_append]
    _ = (p.first ++ p.second).squeeze := by
        rw [Text.squeeze_of_isBlank isGap.blank, List.nil_append, Text.squeeze_append]
    _ = p.first ++ p.second := Text.squeeze_of_isWord proper.words

namespace RuleSet

open Sweep

variable {r : Rule} {t x d : Text} {h : Hit}

/-- The rule that only adds letters to the name it takes. -/
def mimeRule : Rule where
  pattern := "ns_adp_mime"
  replacement := "ns_adp_mimetype"

/-- All other rules for a command write something that differs from it, white space apart. -/
theorem diverges : ∀ r ∈ serverRules, r ≠ permissionRule → r ≠ mimeRule →
    ¬r.phrase.first ++ r.phrase.second <+: r.replacement.squeeze ∧
      ¬r.replacement.squeeze <+: r.phrase.first ++ r.phrase.second := by
  decide +kernel

/-- The letters that are added to a name. -/
def addition : Text := "type"

/-- What a rule writes differs from what it takes, white space apart, or only adds to it. -/
theorem squeeze_output (member : r ∈ serverRules) (takes : r.hit? t = some h) :
    h.output.squeeze = h.taken.squeeze ++ addition ∨
      ¬h.taken.squeeze <+: h.output.squeeze ∧ ¬h.output.squeeze <+: h.taken.squeeze := by
  by_cases permission : r = permissionRule
  · subst permission
    obtain ⟨call, -, -, -, -, rfl⟩ := hit?_permissionRule.mp takes
    rw [PermissionCall.text, PermissionCall.output, Text.squeeze_append, Text.squeeze_append]
    refine .inr ⟨fun same => ?_, fun same => ?_⟩
    · cases (List.cons_prefix_cons.mp same).1
    · cases (List.cons_prefix_cons.mp same).1
  · obtain ⟨gap, -, -, isGap, -, rfl⟩ := (hit?_of_ne member permission).mp takes
    rw [Phrase.squeeze_withGap (tame r member).proper isGap]
    by_cases mime : r = mimeRule
    · subst mime
      exact .inl (show mimeRule.replacement.squeeze = _ by decide +kernel)
    · exact .inr (diverges r member permission mime)

theorem head?_squeeze_of_first? (found : first? Rule.hit? serverRules t = some (r, h)) :
    t.squeeze.head? = some ('n' : CodePoint) := by
  obtain ⟨member, takes⟩ := first?_eq_some found
  obtain ⟨rest, rfl⟩ := starts_of_hit member takes
  rw [Text.squeeze_append]
  rfl

/-- Once a text has got ahead by some letters, with which no command begins, it stays ahead. -/
theorem append_squeeze_sweep_ne (ahead : d ≠ []) (foreign : ('n' : CodePoint) ∉ d) (t : Text) :
    d ++ (sweep Rule.hit? serverRules t).squeeze ≠ t.squeeze := by
  intro same
  induction t generalizing d with
  | nil => exact ahead (List.append_eq_nil_iff.mp same).1
  | cons c rest ih =>
    cases found : first? Rule.hit? serverRules (c :: rest) with
    | none =>
      rw [sweep_kept found] at same
      by_cases blank : c.isBlank = true
      · rw [Text.squeeze_cons_of_isBlank blank, Text.squeeze_cons_of_isBlank blank] at same
        exact ih ahead foreign same
      · have solid : c.isBlank = false := by simpa using blank
        rw [Text.squeeze_cons_of_not_isBlank solid, Text.squeeze_cons_of_not_isBlank solid] at same
        -- The letters that are ahead are now those after the first, and the one just passed.
        obtain ⟨e, d, rfl⟩ := List.exists_cons_of_ne_nil ahead
        obtain ⟨rfl, same⟩ := List.cons.inj same
        refine ih (d := d ++ [e]) (by simp) ?_ (by simpa using same)
        simpa [and_comm] using foreign
    | some hit =>
      obtain ⟨e, d, rfl⟩ := List.exists_cons_of_ne_nil ahead
      have first := head?_squeeze_of_first? found
      rw [← same] at first
      cases first
      exact foreign List.mem_cons_self

/-- A pass that takes something leaves a text that differs in more than white space. -/
theorem squeeze_sweep_eq_iff :
    (sweep Rule.hit? serverRules t).squeeze = t.squeeze ↔
      changes (parts Rule.hit? serverRules t) = 0 := by
  induction t using orderly.pass_induction (fun _ => id) with
  | nil => exact iff_of_true rfl rfl
  | kept c rest found ih =>
    rw [sweep_kept found, parts_kept found, changes_kept, ← ih]
    by_cases blank : c.isBlank = true
    · rw [Text.squeeze_cons_of_isBlank blank, Text.squeeze_cons_of_isBlank blank]
    · have solid : c.isBlank = false := by simpa using blank
      rw [Text.squeeze_cons_of_not_isBlank solid, Text.squeeze_cons_of_not_isBlank solid,
        List.cons_inj_right]
  | changed r h x written found _ =>
    obtain ⟨member, takes⟩ := first?_eq_some found
    rw [sweep_changed written found, parts_changed written found, changes_changed,
      Text.squeeze_append, Text.squeeze_append]
    refine iff_of_false (fun same => ?_) (Nat.succ_ne_zero _)
    rcases squeeze_output member takes with longer | ⟨notBefore, notAfter⟩
    · rw [longer, List.append_assoc] at same
      exact append_squeeze_sweep_ne (by decide) (by decide) x (List.append_cancel_left same)
    · rcases Text.isPrefix_or_isPrefix same with before | after
      · exact notAfter before
      · exact notBefore after

/-- A pass that takes nothing leaves the text as it is. -/
theorem sweep_eq_of_changes (none : changes (parts Rule.hit? serverRules t) = 0) :
    sweep Rule.hit? serverRules t = t := by
  induction t using orderly.pass_induction (fun _ => id) with
  | nil => rfl
  | kept c rest found ih =>
    rw [parts_kept found, changes_kept] at none
    rw [sweep_kept found, ih none]
  | changed r h x written found _ =>
    rw [parts_changed written found, changes_changed] at none
    cases none

/-- An update with the rules for server scripts leaves the text as it is or changes more than white
space, and a diff that ignores white space is empty exactly if nothing was replaced. -/
theorem update_shown_iff (t oldName newName : Text) (context : Nat) :
    ∃ u, update server.rules t = .ok u ∧
      (Diff.unified t.lines u.text.lines oldName newName context true = [] ↔ u.changes = 0) ∧
      (u.text.squeeze = t.squeeze ↔ u.changes = 0) := by
  refine ⟨_, update_server t, ?_⟩
  rw [Updated.changes_ofPass nodup_serverRules t]
  refine ⟨?_, squeeze_sweep_eq_iff⟩
  rw [Diff.unified, if_pos rfl,
    Diff.unifiedIgnoringBlanks_eq_nil_iff _ _ _ _ (Int.natCast_nonneg context)]
  constructor
  · intro same
    rw [← squeeze_sweep_eq_iff, ← Text.flatten_map_squeeze_lines t,
      ← Text.flatten_map_squeeze_lines, same]
    rfl
  · intro none
    rw [show (Updated.ofPass serverRules t).text = t from sweep_eq_of_changes none]

end RuleSet

end Renewal
