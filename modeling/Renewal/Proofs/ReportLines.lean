import Mathlib.Data.List.Nodup
import Renewal.Proofs.Detection
import Renewal.Proofs.PathOrder
import Renewal.Report

/-! # What a report lists

A report lists, for each table of a rule set, the given names that stand in it, each once and in
the order of their code points (`Report.Lists`). There is only one such list, so that neither the
order nor the repetition of the given names matters. A report has lines just if some name stands in
a table, and no line of a report comes twice (`report_exact`).
-/

namespace Renewal

namespace Text

variable {s t : Text}

/-- A text comes before another in the order of code points. -/
def Precedes (s t : Text) : Prop :=
  List.Lex (fun a b => a.code < b.code) s t

theorem precedes_iff : s.Precedes t ↔ s.le t = true ∧ s ≠ t := by
  induction s generalizing t with
  | nil =>
    cases t with
    | nil => exact iff_of_false (fun before => by cases before) fun before => before.2 rfl
    | cons b t => exact iff_of_true .nil ⟨rfl, by simp⟩
  | cons a s ih =>
    cases t with
    | nil => exact iff_of_false (fun before => by cases before) fun before => by cases before.1
    | cons b t =>
      simp only [le, Bool.or_eq_true, decide_eq_true_eq, Bool.and_eq_true, beq_iff_eq]
      constructor
      · intro before
        cases before with
        | rel less =>
          refine ⟨.inl less, fun same => ?_⟩
          obtain ⟨rfl, -⟩ := List.cons.inj same
          exact Nat.lt_irrefl _ less
        | cons after =>
          have later := ih.mp after
          exact ⟨.inr ⟨rfl, later.1⟩, fun same => later.2 (List.cons.inj same).2⟩
      · intro both
        obtain ⟨less | ⟨same, later⟩, different⟩ := both
        · exact .rel less
        · have equal : a = b := by
            cases a
            cases b
            exact (CodePoint.mk.injEq ..).mpr same
          subst equal
          exact .cons (ih.mpr ⟨later, fun rest => different (congrArg (a :: ·) rest)⟩)

theorem nodup_eraseDups (ts : List Text) : ts.eraseDups.Nodup := by
  induction size : ts.length using Nat.strong_induction_on generalizing ts with
  | _ size ih =>
    cases ts with
    | nil => exact .nil
    | cons t rest =>
      subst size
      rw [List.eraseDups_cons]
      apply List.nodup_cons.mpr
      constructor
      · intro again
        rw [List.mem_eraseDups, List.mem_filter] at again
        simp at again
      · exact ih _ (Nat.lt_succ_of_le (List.length_filter_le _ _)) _ rfl

/-- Sorted names increase strictly. -/
theorem pairwise_sortedSet (ts : List Text) : (sortedSet ts).Pairwise Precedes := by
  have sorted : (sortedSet ts).Pairwise fun s t => s.le t = true := by
    apply List.pairwise_mergeSort
    · exact fun _ _ _ => le_trans
    · exact fun s t => (Bool.or_eq_true _ _).mpr (le_total s t)
  have distinct : (sortedSet ts).Nodup :=
    (List.mergeSort_perm _ _).nodup_iff.mpr (nodup_eraseDups ts)
  exact (sorted.and distinct).imp precedes_iff.mpr

end Text

namespace Report

variable {names others table listed listed' : List Text}

/-- A list has the names that stand in a table, each once and in the order of code points. -/
structure Lists (names table listed : List Text) : Prop where
  mem_iff : ∀ n, n ∈ listed ↔ n ∈ names ∧ n ∈ table
  increasing : listed.Pairwise Text.Precedes

namespace Lists

theorem nodup (lists : Lists names table listed) : listed.Nodup :=
  lists.increasing.imp fun before => (Text.precedes_iff.mp before).2

/-- The list is told by which names are given. -/
theorem unique (lists : Lists names table listed) (lists' : Lists others table listed')
    (same : ∀ n, n ∈ others ↔ n ∈ names) : listed' = listed := by
  have perm : listed'.Perm listed := by
    apply (List.perm_ext_iff_of_nodup lists'.nodup lists.nodup).mpr
    intro n
    rw [lists'.mem_iff, lists.mem_iff, same]
  apply List.Perm.eq_of_pairwise _ lists'.increasing lists.increasing perm
  intro s t _ _ before after
  exact Text.le_antisymm (Text.precedes_iff.mp before).1 (Text.precedes_iff.mp after).1

theorem eq_nil_iff (lists : Lists names table listed) :
    listed = [] ↔ ∀ n ∈ names, n ∉ table := by
  simp only [List.eq_nil_iff_forall_not_mem, lists.mem_iff, not_and]

end Lists

theorem lists_filter (names table : List Text) :
    Lists names table ((Text.sortedSet names).filter table.contains) where
  mem_iff n := by rw [List.mem_filter, Text.mem_sortedSet, List.contains_iff_mem]
  increasing := (Text.pairwise_sortedSet names).filter _

/-- Lines that have a name in quotes after different words are different. -/
theorem concat_ne {lead lead' : Text} (apart : ¬lead <+: lead') (apart' : ¬lead' <+: lead)
    (n n' : Text) : Text.concat [lead, n, "'"] ≠ Text.concat [lead', n', "'"] := by
  intro same
  exact (Text.isPrefix_or_isPrefix same).elim apart apart'

theorem concat_injective (lead : Text) :
    Function.Injective fun n : Text => Text.concat [lead, n, "'"] := by
  intro n n' same
  exact List.append_cancel_right (List.append_cancel_left same)

/-- No line of a report comes twice if no name is listed twice. -/
theorem nodup_lines {r : Report} (deprecated : r.deprecated.Nodup) (uncertain : r.uncertain.Nodup)
    (modernize : r.modernize.Nodup) : r.lines.Nodup := by
  rw [lines]
  split
  · have header_ne : ∀ (lead n : Text), lead.head? = some ('u' : CodePoint) →
        r.header ≠ Text.concat [lead, n, "'"] := by
      intro lead n begins same
      obtain ⟨rest, rfl⟩ := List.head?_eq_some_iff.mp begins
      cases (List.cons.inj same).1
    rw [List.nodup_cons, List.nodup_append, List.nodup_append]
    simp only [List.mem_append, List.mem_map, not_or, not_exists, not_and]
    refine ⟨⟨⟨?_, ?_⟩, ?_⟩, ⟨?_, ?_, ?_⟩, ?_, ?_⟩
    · exact fun n _ same => header_ne _ n (by rfl) same.symm
    · exact fun n _ same => header_ne _ n (by rfl) same.symm
    · exact fun n _ same => header_ne _ n (by rfl) same.symm
    · exact List.Nodup.map (concat_injective _) deprecated
    · exact List.Nodup.map (concat_injective _) uncertain
    · rintro _ ⟨n, -, rfl⟩ _ ⟨n', -, rfl⟩
      exact concat_ne (by decide) (by decide) n n'
    · exact List.Nodup.map (concat_injective _) modernize
    · rintro _ (⟨n, -, rfl⟩ | ⟨n, -, rfl⟩) _ ⟨n', -, rfl⟩
      · exact concat_ne (by decide) (by decide) n n'
      · exact concat_ne (by decide) (by decide) n n'
  · exact .nil

theorem lines_eq_nil_iff (r : Report) :
    r.lines = [] ↔ r.deprecated = [] ∧ r.uncertain = [] ∧ r.modernize = [] := by
  have found : r.hasFindings = false ↔
      r.deprecated = [] ∧ r.uncertain = [] ∧ r.modernize = [] := by
    simp [hasFindings, and_assoc]
  rw [← found, lines]
  cases r.hasFindings <;> simp

end Report

open Report

/-- A report is empty just if none of the names stands in a table. Otherwise it has one header, and
then for each table in turn a line for each name that stands in it, in the order of code points; no
line comes twice. Which names are given, and nothing else about them, decides the report. -/
theorem report_exact (rules : RuleSet) (path : Text) (names : List Text) :
    ((ofNames path names rules).lines = [] ↔ ∀ n ∈ names,
      n ∉ rules.deprecated ∧ n ∉ rules.uncertain ∧ n ∉ rules.modernize) ∧
    ((ofNames path names rules).lines ≠ [] → ∃ deprecated uncertain modernize : List Text,
      Lists names rules.deprecated deprecated ∧ Lists names rules.uncertain uncertain ∧
      Lists names rules.modernize modernize ∧
      (ofNames path names rules).lines = .concat ["\n----- ", path] ::
        (deprecated.map (fun n => .concat ["use of deprecated command: '", n, "'"]) ++
          uncertain.map (fun n => .concat ["use of command with unclear future: '", n, "'"]) ++
          modernize.map
            (fun n => .concat ["use of command that should be modernized: '", n, "'"])) ∧
      (ofNames path names rules).lines.Nodup) ∧
    ∀ others : List Text, (∀ n, n ∈ others ↔ n ∈ names) →
      ofNames path others rules = ofNames path names rules := by
  have deprecated := lists_filter names rules.deprecated
  have uncertain := lists_filter names rules.uncertain
  have modernize := lists_filter names rules.modernize
  refine ⟨?_, ?_, ?_⟩
  · rw [lines_eq_nil_iff]
    simp only [ofNames]
    rw [deprecated.eq_nil_iff, uncertain.eq_nil_iff, modernize.eq_nil_iff]
    simp only [forall_and]
  · intro some
    refine ⟨_, _, _, deprecated, uncertain, modernize, ?_,
      nodup_lines deprecated.nodup uncertain.nodup modernize.nodup⟩
    rw [lines] at some ⊢
    split at some
    · rename_i found
      rw [if_pos found]
      rfl
    · exact absurd rfl some
  · intro others same
    simp only [ofNames, Report.mk.injEq, true_and]
    exact ⟨deprecated.unique (lists_filter others _) same,
      uncertain.unique (lists_filter others _) same, modernize.unique (lists_filter others _) same⟩

/-- Tables that have a name in common. -/
def overlapping : RuleSet where
  deprecated := ["ns_b", "ns_a'\x7bname\x7d"]
  modernize := ["ns_b"]

/-- A name that comes twice and stands in two tables has a line for each of them. -/
theorem report_exact_overlapping :
    (ofNames "t.tcl" ["ns_b", "ns_c", "ns_a'\x7bname\x7d", "ns_b"] overlapping).lines =
      ["\n----- t.tcl", "use of deprecated command: 'ns_a'\x7bname\x7d'",
        "use of deprecated command: 'ns_b'",
        "use of command that should be modernized: 'ns_b'"] ∧
    ofNames "t.tcl" ["ns_a'\x7bname\x7d", "ns_b", "ns_c"] overlapping =
      ofNames "t.tcl" ["ns_b", "ns_c", "ns_a'\x7bname\x7d", "ns_b"] overlapping := by
  obtain ⟨empty, written, alike⟩ :=
    report_exact overlapping "t.tcl" ["ns_b", "ns_c", "ns_a'\x7bname\x7d", "ns_b"]
  have inBoth : ∀ a b c n : Text, n ∈ [a, b] ↔ n ∈ [b, c, a, b] ∧ n ∈ [b, a] := by
    intro a b c n
    simp
    tauto
  have inOne : ∀ a b c n : Text, n ∈ [b] ↔ n ∈ [b, c, a, b] ∧ n ∈ [b] := by
    intro a b c n
    simp
    tauto
  have sameNames : ∀ a b c n : Text, n ∈ [a, b, c] ↔ n ∈ [b, c, a, b] := by
    intro a b c n
    simp
    tauto
  refine ⟨?_, alike _ (sameNames _ _ _)⟩
  have some : (ofNames "t.tcl" ["ns_b", "ns_c", "ns_a'\x7bname\x7d", "ns_b"] overlapping).lines ≠
      [] := by
    rw [Ne, empty]
    exact fun none => (none "ns_b" (by simp)).1 (by simp [overlapping])
  obtain ⟨deprecated, uncertain, modernize, first, second, third, same, -⟩ := written some
  have before : Text.Precedes "ns_a'\x7bname\x7d" "ns_b" :=
    .cons (.cons (.cons (.rel (by decide))))
  have both : Lists ["ns_b", "ns_c", "ns_a'\x7bname\x7d", "ns_b"] overlapping.deprecated
      ["ns_a'\x7bname\x7d", "ns_b"] :=
    ⟨inBoth _ _ _, by simpa using before⟩
  have one : Lists ["ns_b", "ns_c", "ns_a'\x7bname\x7d", "ns_b"] overlapping.modernize
      ["ns_b"] :=
    ⟨inOne _ _ _, by simp⟩
  have none : Lists ["ns_b", "ns_c", "ns_a'\x7bname\x7d", "ns_b"] overlapping.uncertain [] :=
    ⟨fun n => by simp [overlapping], .nil⟩
  rw [same, both.unique first fun _ => .rfl, none.unique second fun _ => .rfl,
    one.unique third fun _ => .rfl]
  rfl

end Renewal
