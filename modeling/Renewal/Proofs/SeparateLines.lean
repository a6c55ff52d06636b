import Renewal.Proofs.ServerRules

/-! # Lines are updated apart

A pass over two texts that follow each other is a pass over each of them, if nothing is taken across
the place where they meet (`Sweep.Orderly.parts_append`). The only newlines in a command are in the
white space behind its first word. So an update works on the lines before and after a newline apart,
unless the last word before it is one that a command can go on after (`update_append`).
-/

namespace Renewal

namespace Sweep

variable {ι : Type} {hits : ι → Text → Option Hit} {rules : List ι} {among : Set ι} {a x : Text}

theorem first?_congr {y : Text} (same : ∀ r ∈ rules, hits r x = hits r y) :
    first? hits rules x = first? hits rules y := by
  induction rules with
  | nil => rfl
  | cons r rules ih =>
    have later := ih fun r' member => same r' (List.mem_cons_of_mem r member)
    unfold first? at later ⊢
    rw [List.findSome?_cons, List.findSome?_cons, same r List.mem_cons_self, later]

/-- Where each place of a text takes the same whether another text follows or not, the two texts are
taken apart. -/
theorem Orderly.parts_append (orderly : Orderly hits among) (inside : ∀ r ∈ rules, r ∈ among)
    (apart : ∀ y, y <:+ a → y ≠ [] → first? hits rules (y ++ x) = first? hits rules y) :
    parts hits rules (a ++ x) = parts hits rules a ++ parts hits rules x := by
  induction a using orderly.pass_induction inside with
  | nil => rfl
  | kept c rest found ih =>
    have here := apart _ (List.suffix_refl _) (List.cons_ne_nil c rest)
    have later := ih fun y suffix => apart y (suffix.trans (List.suffix_cons c rest))
    rw [found, List.cons_append] at here
    rw [List.cons_append, parts_kept here, parts_kept found, later]
    rfl
  | changed r h y written found ih =>
    have here := apart _ (List.suffix_refl _) (List.append_ne_nil_of_left_ne_nil written y)
    have later := ih fun z suffix => apart z (suffix.trans (List.suffix_append h.taken y))
    rw [found, List.append_assoc] at here
    rw [List.append_assoc, parts_changed written here, parts_changed written found, later]
    rfl

theorem count_append [DecidableEq ι] (r : ι) (ps qs : List (Part ι)) :
    count r (ps ++ qs) = count r ps + count r qs :=
  List.countP_append

theorem changes_append (ps qs : List (Part ι)) : changes (ps ++ qs) = changes ps + changes qs :=
  List.countP_append

end Sweep

open Sweep

namespace Updated

variable {rules : List Rule} {r : Rule}

/-- How often a rule applied. -/
def times (u : Updated) (r : Rule) : Nat :=
  u.applied.foldl (fun n entry => if entry.1 = r then n + entry.2 else n) 0

/-- A sum over different rules that counts only one of them. -/
theorem foldl_single (nodup : rules.Nodup) (f : Rule → Nat) (start : Nat) :
    rules.foldl (fun n q => if q = r then n + f q else n) start =
      if r ∈ rules then start + f r else start := by
  induction rules generalizing start with
  | nil => rfl
  | cons q rules ih =>
    obtain ⟨fresh, nodup⟩ := List.nodup_cons.mp nodup
    rw [List.foldl_cons, ih nodup]
    by_cases same : q = r
    · subst same
      simp [fresh]
    · simp [same, Ne.symm same]

theorem times_ofPass (nodup : rules.Nodup) (r : Rule) (t : Text) :
    (ofPass rules t).times r = count r (parts Rule.hit? rules t) := by
  have sum : (ofPass rules t).times r =
      rules.foldl (fun n q => if q = r then n + count q (parts Rule.hit? rules t) else n) 0 := by
    rw [times, ofPass, List.foldl_filterMap]
    congr 1
    funext n q
    by_cases idle : count q (parts Rule.hit? rules t) = 0
    · simp [idle]
    · simp [idle]
  rw [sum, foldl_single nodup]
  split
  · exact Nat.zero_add _
  · rename_i absent
    exact (count_eq_zero absent t).symm

end Updated

namespace Text

variable {p : CodePoint → Bool}

/-- What is left of a text without the white space at its end ends where the last word does. -/
theorem dropEndWhile_append {t word gap : Text} (inside : ∀ c ∈ gap, p c = true)
    (written : word ≠ []) (outside : ∀ c ∈ word, p c = false) :
    dropEndWhile p (t ++ (word ++ gap)) = t ++ word := by
  have last : p (word.getLast written) = false := outside _ (List.getLast_mem written)
  have kept : (t ++ word).getLast? = some (word.getLast written) := by
    rw [List.getLast?_append, List.getLast?_eq_some_getLast written]
    rfl
  obtain ⟨front, cut⟩ := List.getLast?_eq_some_iff.mp kept
  rw [dropEndWhile, ← List.append_assoc, List.reverse_append,
    List.dropWhile_append_of_pos (by simpa using inside), cut, List.reverse_concat,
    List.dropWhile_cons_of_neg (by simp [last]), ← List.reverse_concat, List.reverse_reverse]

end Text

namespace RuleSet

variable {r : Rule} {a b t y : Text} {h : Hit}

/-- The words that a command can go on after, behind white space. -/
def openWords : List Text := ["ns_chmod", "ns_info", "ns_server", "ns_set", "ns_thread"]

theorem first_mem_openWords : ∀ r ∈ serverRules, r = permissionRule ∨ r.phrase.second ≠ [] →
    r.phrase.first ∈ openWords := by
  decide +kernel

theorem isWord_of_mem_openWords : ∀ word ∈ openWords, word ≠ [] ∧ ∀ c ∈ word, c.isWord = true := by
  decide

theorem newline_not_mem {m : Text} (words : ∀ c ∈ m, c.isWord = true) :
    ('\n' : CodePoint) ∉ m := by
  intro member
  have word := words _ member
  revert word
  decide

/-- What a rule takes ends with something on one line. Before it there is nothing, or white space
and one of the words that go on behind it. -/
structure Layout (word gap rest : Text) : Prop where
  opening : gap = [] ∧ word = [] ∨ word ∈ openWords
  blank : ∀ c ∈ gap, c.isBlank = true
  written : rest ≠ []
  oneLine : ('\n' : CodePoint) ∉ rest

theorem exists_layout (member : r ∈ serverRules) (takes : r.hit? t = some h) :
    ∃ word gap rest, h.taken = word ++ (gap ++ rest) ∧ Layout word gap rest := by
  by_cases permission : r = permissionRule
  · subst permission
    obtain ⟨call, -, valid, -, -, rfl⟩ := hit?_permissionRule.mp takes
    have named : permissionRule.phrase.first = PermissionCall.name := rfl
    refine ⟨PermissionCall.name, call.gap, call.file ++ (call.spaces ++ call.mode), rfl, ?_, ?_, ?_,
      ?_⟩
    · exact .inr (named ▸ first_mem_openWords _ member (.inl rfl))
    · intro c inGap
      exact Pattern.contains_blank ▸ valid.gap.inside c inGap
    · simp [valid.file.written]
    · simp only [List.mem_append, not_or]
      exact ⟨PermissionCall.not_mem_of_run valid.file (by decide),
        PermissionCall.not_mem_of_run valid.spaces (by decide),
        PermissionCall.not_mem_of_run valid.mode (by decide)⟩
  · obtain ⟨gap, -, -, isGap, -, rfl⟩ := (hit?_of_ne member permission).mp takes
    obtain ⟨written, words, -⟩ := (tame r member).proper
    by_cases single : r.phrase.second = []
    · refine ⟨[], [], r.phrase.first, ?_, .inl ⟨rfl, rfl⟩, by simp, written, ?_⟩
      · rw [Phrase.withGap, isGap.between.mpr single, single]
        simp
      · exact newline_not_mem fun c inside => words c (List.mem_append_left _ inside)
    · refine ⟨r.phrase.first, gap, r.phrase.second, rfl, ?_, isGap.blank, single, ?_⟩
      · exact .inr (first_mem_openWords r member (.inr single))
      · exact newline_not_mem fun c inside => words c (List.mem_append_right _ inside)

/-- A text that ends with a newline, and not with a word that a command can go on after. -/
structure Closed (a : Text) : Prop where
  line : a.getLast? = some ('\n' : CodePoint)
  closed : ∀ word ∈ openWords, ¬word <:+ Text.dropEndWhile CodePoint.isBlank a

theorem Closed.getLast?_suffix (closed : Closed a) (suffix : y <:+ a) (written : y ≠ []) :
    y.getLast? = some ('\n' : CodePoint) := by
  obtain ⟨front, rfl⟩ := suffix
  have line := closed.line
  rwa [List.getLast?_append_of_ne_nil front written] at line

/-- What a rule takes does not begin with the end of a closed text. -/
theorem Closed.not_prefix_layout (closed : Closed a) (suffix : y <:+ a) (written : y ≠ [])
    {word gap rest : Text} (layout : Layout word gap rest) : ¬y <+: word ++ (gap ++ rest) := by
  intro onward
  have line : ('\n' : CodePoint) ∈ y := List.mem_of_getLast? (closed.getLast?_suffix suffix written)
  have wordLine : ('\n' : CodePoint) ∉ word := by
    rcases layout.opening with ⟨-, rfl⟩ | opening
    · exact List.not_mem_nil
    · exact newline_not_mem (isWord_of_mem_openWords word opening).2
  -- The newline stands in the white space, so that nothing but white space follows the word.
  rcases Text.isPrefix_or_isPrefix onward.choose_spec with before | ⟨behind, rfl⟩
  · exact wordLine (before.subset line)
  · have between : behind <+: gap ++ rest := (List.prefix_append_right_inj word).mp onward
    have inGap : behind <+: gap := by
      rcases Text.isPrefix_or_isPrefix between.choose_spec with before | ⟨more, rfl⟩
      · exact before
      · by_cases none : more = []
        · simp [none]
        · have ends := closed.getLast?_suffix
            (((List.suffix_append gap more).trans (List.suffix_append word _)).trans suffix) none
          have inRest := (List.prefix_append_right_inj gap).mp between
          exact absurd (inRest.subset (List.mem_of_getLast? ends)) layout.oneLine
    have opening : word ∈ openWords := by
      refine layout.opening.resolve_left ?_
      rintro ⟨rfl, rfl⟩
      rw [List.prefix_nil.mp inGap] at line
      cases line
    obtain ⟨wordWritten, words⟩ := isWord_of_mem_openWords word opening
    obtain ⟨front, rfl⟩ := suffix
    apply closed.closed word opening
    rw [Text.dropEndWhile_append (fun c inside => layout.blank c (inGap.subset inside)) wordWritten
      fun c inside => CodePoint.isBlank_of_isWord (words c inside)]
    exact List.suffix_append front word

/-- What a rule takes in front of a newline ends before it. -/
theorem Closed.exists_rest (closed : Closed a) (suffix : y <:+ a) (written : y ≠ [])
    (member : r ∈ serverRules) (takes : r.hit? (y ++ b) = some h) :
    ∃ z, z ≠ [] ∧ y = h.taken ++ z := by
  obtain ⟨word, gap, rest, whole, layout⟩ := exists_layout member takes
  obtain ⟨-, x, cut⟩ := taken_isPrefix member takes
  rcases Text.isPrefix_or_isPrefix cut with ⟨z, within⟩ | across
  · refine ⟨z, ?_, within.symm⟩
    rintro rfl
    have line := closed.getLast?_suffix suffix written
    rw [← within, List.append_nil, whole, ← List.append_assoc,
      List.getLast?_append_of_ne_nil _ layout.written] at line
    exact layout.oneLine (List.mem_of_getLast? line)
  · rw [whole] at across
    exact absurd across (closed.not_prefix_layout suffix written layout)

/-- What a rule takes before the end of a line does not depend on the lines after it. -/
theorem Closed.hit?_append (closed : Closed a) (suffix : y <:+ a) (written : y ≠ [])
    (member : r ∈ serverRules) (b : Text) : r.hit? (y ++ b) = r.hit? y := by
  apply Option.ext
  intro h
  constructor
  · intro takes
    obtain ⟨z, more, rfl⟩ := closed.exists_rest suffix written member takes
    rw [List.append_assoc] at takes
    apply hit?_nearby member takes
    obtain ⟨c, z, rfl⟩ := List.exists_cons_of_ne_nil more
    rfl
  · intro takes
    obtain ⟨z, more, rfl⟩ :=
      closed.exists_rest (b := []) suffix written member (by simpa using takes)
    rw [List.append_assoc]
    apply hit?_nearby member takes
    obtain ⟨c, z, rfl⟩ := List.exists_cons_of_ne_nil more
    rfl

theorem Closed.parts_append (closed : Closed a) (b : Text) :
    parts Rule.hit? serverRules (a ++ b) =
      parts Rule.hit? serverRules a ++ parts Rule.hit? serverRules b := by
  apply orderly.parts_append fun _ => id
  intro y suffix written
  apply first?_congr
  intro r member
  exact closed.hit?_append suffix written member b

end RuleSet

/-- An update works on what comes before and after the end of a line apart, unless the last word
before is one that a command can go on after: the texts follow each other, and what is replaced adds
up, for all rules together and for each. -/
theorem update_append {a : Text} (line : a.getLast? = some ('\n' : CodePoint))
    (closed : ∀ word ∈ RuleSet.openWords, ¬word <:+ Text.dropEndWhile CodePoint.isBlank a)
    (b : Text) :
    ∃ u v w, update RuleSet.server.rules a = .ok u ∧ update RuleSet.server.rules b = .ok v ∧
      update RuleSet.server.rules (a ++ b) = .ok w ∧ w.text = u.text ++ v.text ∧
      w.changes = u.changes + v.changes ∧ ∀ r, w.times r = u.times r + v.times r := by
  have parts := RuleSet.Closed.parts_append ⟨line, closed⟩ b
  have nodup := RuleSet.nodup_serverRules
  refine ⟨_, _, _, RuleSet.update_server a, RuleSet.update_server b, RuleSet.update_server (a ++ b),
    ?_, ?_, ?_⟩
  · simp only [Updated.ofPass, sweep, parts, List.flatMap_append]
  · rw [Updated.changes_ofPass nodup, Updated.changes_ofPass nodup, Updated.changes_ofPass nodup,
      parts, changes_append]
  · intro r
    rw [Updated.times_ofPass nodup, Updated.times_ofPass nodup, Updated.times_ofPass nodup, parts,
      count_append]

/-- A command that goes on in the next line, and a word that another could have gone on with. -/
theorem update_append_pageroot :
    let a : Text := "ns_info\n pageroot; ns_set\nnew; ns_cp $a \n"
    let b : Text := "pageroot; ns_cp"
    a.getLast? = some ('\n' : CodePoint) ∧
    (∀ word ∈ RuleSet.openWords, ¬word <:+ Text.dropEndWhile CodePoint.isBlank a) ∧
    ∃ u v w, update RuleSet.server.rules a = .ok u ∧ update RuleSet.server.rules b = .ok v ∧
      update RuleSet.server.rules (a ++ b) = .ok w ∧ w.text = u.text ++ v.text ∧
      w.changes = u.changes + v.changes ∧ ∀ r, w.times r = u.times r + v.times r := by
  intro a b
  have line : a.getLast? = some ('\n' : CodePoint) := by decide
  have closed : ∀ word ∈ RuleSet.openWords,
      ¬word <:+ Text.dropEndWhile CodePoint.isBlank a := by
    decide
  exact ⟨line, closed, update_append line closed b⟩

end Renewal
