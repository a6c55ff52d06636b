import Renewal.Proofs.ServerRules

/-! # Every match is replaced

Each rule works on what the ones before it have left. Still, an update replaces just what the
patterns of the rules match in the text that it is given. A pattern does not look at what stands
before, so that the end of a longer name counts as a match; its beginning does not, as most patterns
look at what comes after.
-/

namespace Renewal

namespace Sweep

variable {ι : Type} {hits : ι → Text → Option Hit} {rules : List ι} {among : Set ι} {r : ι}
  {t x : Text} {h : Hit}

theorem isSome_first? :
    (first? hits rules t).isSome = rules.any fun r => (hits r t).isSome := by
  simp [first?, List.isSome_findSome?]

namespace Orderly

theorem first?_nil (orderly : Orderly hits among) (inside : ∀ r ∈ rules, r ∈ among) :
    first? hits rules [] = none := by
  by_contra found
  obtain ⟨⟨r, h⟩, found⟩ := Option.ne_none_iff_exists'.mp found
  obtain ⟨tried, takes⟩ := first?_eq_some found
  obtain ⟨written, within⟩ := orderly.proper (inside r tried) takes
  exact written (List.prefix_nil.mp within)

/-- In a pass something is taken at every place where a rule would take something. -/
theorem changes_eq (orderly : Orderly hits among) (inside : ∀ r ∈ rules, r ∈ among) (t : Text) :
    changes (parts hits rules t) =
      (List.range (t.length + 1)).countP fun k => (first? hits rules (t.drop k)).isSome := by
  -- The places that are skipped are inside of what was taken, and nothing is taken there.
  have each : ∀ skip, (∀ k < skip, first? hits rules (t.drop k) = none) →
      changes (partsFrom hits rules skip t) =
        (List.range (t.length + 1)).countP fun k => (first? hits rules (t.drop k)).isSome := by
    induction t with
    | nil =>
      intro skip _
      have nothing : partsFrom hits rules skip [] = [] := by
        cases skip <;> rfl
      simp [nothing, changes, orderly.first?_nil inside]
    | cons c rest ih =>
      have places : (List.range ((c :: rest).length + 1)).countP
            (fun k => (first? hits rules ((c :: rest).drop k)).isSome) =
          (List.range (rest.length + 1)).countP
              (fun k => (first? hits rules (rest.drop k)).isSome) +
            if (first? hits rules (c :: rest)).isSome then 1 else 0 := by
        rw [List.range_succ_eq_map, List.countP_cons, List.countP_map]
        rfl
      intro skip skipped
      rw [places]
      cases skip with
      | succ skip =>
        have here : first? hits rules (c :: rest) = none := skipped 0 (Nat.succ_pos skip)
        rw [here, partsFrom, ih skip fun k within => skipped (k + 1) (Nat.succ_lt_succ within)]
        rfl
      | zero =>
        rw [partsFrom]
        cases found : first? hits rules (c :: rest) with
        | none =>
          dsimp only
          rw [changes_kept, ih 0 fun k within => absurd within (Nat.not_lt_zero k)]
          rfl
        | some pair =>
          obtain ⟨r, h⟩ := pair
          obtain ⟨tried, takes⟩ := first?_eq_some found
          have taken : ∀ k < h.taken.length - 1, first? hits rules (rest.drop k) = none := by
            intro k within
            rw [first?_eq_none]
            intro r' tried'
            have later : k + 1 < h.taken.length := Nat.add_lt_of_lt_sub within
            exact orderly.alone (t := c :: rest) (inside r tried) (inside r' tried') takes
              (Nat.succ_pos k) later
          dsimp only
          rw [changes_changed, ih _ taken]
          rfl
  exact each 0 fun k within => absurd within (Nat.not_lt_zero k)

/-- A pass changes a text if something is taken anywhere. -/
theorem sweep_eq_self_iff (orderly : Orderly hits among) (inside : ∀ r ∈ rules, r ∈ among) :
    sweep hits rules t = t ↔ ∀ x, x <:+ t → first? hits rules x = none := by
  constructor
  · intro same x suffix
    induction t with
    | nil =>
      rw [List.suffix_nil.mp suffix]
      exact orderly.first?_nil inside
    | cons c rest ih =>
      have here : first? hits rules (c :: rest) = none := by
        by_contra found
        obtain ⟨⟨r, h⟩, found⟩ := Option.ne_none_iff_exists'.mp found
        obtain ⟨tried, takes⟩ := first?_eq_some found
        obtain ⟨written, y, cut⟩ := orderly.proper (inside r tried) takes
        -- What is written instead of it holds nothing to take, so it is not the same text.
        have output : h.output ≠ [] := by
          intro nothing
          have begins := (orderly.begins (inside r tried) takes).2
          rw [nothing] at begins
          cases begins
        have free := orderly.barren (sweep hits rules y) (inside r tried) (inside r tried) takes
          (List.length_pos_of_ne_nil output)
        rw [← cut] at found same takes
        rw [sweep_changed written found] at same
        rw [List.drop_zero, same, takes] at free
        cases free
      rcases List.suffix_cons_iff.mp suffix with rfl | later
      · exact here
      · rw [sweep_kept here] at same
        exact ih (List.cons.inj same).2 later
  · intro free
    apply sweep_eq_self
    intro r tried x suffix
    exact first?_eq_none.mp (free x suffix) r tried

end Orderly

end Sweep

open Sweep

/-- What the pattern of a rule matches at a place of a text. -/
def Rule.matchAt? (r : Rule) (t : Text) (place : Nat) : Option Match :=
  match r.read with
  | .error _ => none
  | .ok s => s.pattern.matchAt? (t.take place).getLast? (t.drop place)

/-- The places of a text at which the pattern of a rule matches. -/
def matchPlaces (rules : List Rule) (t : Text) : List Nat :=
  (List.range (t.length + 1)).filter fun place =>
    rules.any fun r => (r.matchAt? t place).isSome

variable {r : Rule} {t x : Text} {h : Hit} {m : Match} {place : Nat}

theorem Rule.Applicable.hit?_of_matchAt? (applicable : r.Applicable)
    (matched : r.matchAt? t place = some m) :
    ∃ output, r.hit? (t.drop place) = some ⟨m.text, output⟩ := by
  obtain ⟨s, reads, steady⟩ := applicable
  rw [matchAt?, reads] at matched
  dsimp only at matched
  rw [steady.forward] at matched
  exact ⟨s.template.expand m, by rw [hit?_eq reads, Pattern.hit?, matched]; rfl⟩

theorem Rule.Applicable.isSome_matchAt? (applicable : r.Applicable) :
    (r.matchAt? t place).isSome = (r.hit? (t.drop place)).isSome := by
  obtain ⟨s, reads, steady⟩ := applicable
  rw [matchAt?, hit?_eq reads, reads, Pattern.hit?, Option.isSome_map]
  dsimp only
  rw [steady.forward]

namespace RuleSet

theorem matchPlaces_eq (t : Text) : matchPlaces serverRules t =
    (List.range (t.length + 1)).filter fun place =>
      (first? Rule.hit? serverRules (t.drop place)).isSome := by
  rw [matchPlaces]
  congr 1
  funext place
  rw [isSome_first?, Bool.eq_iff_iff, List.any_eq_true, List.any_eq_true]
  refine exists_congr fun r => and_congr_right fun member => ?_
  rw [(applicable member).isSome_matchAt?]

theorem matchPlaces_eq_nil_iff :
    matchPlaces serverRules t = [] ↔ ∀ x, x <:+ t → first? Rule.hit? serverRules x = none := by
  rw [matchPlaces_eq, List.filter_eq_nil_iff]
  constructor
  · rintro free x ⟨u, rfl⟩
    have within : u.length < (u ++ x).length + 1 := by
      rw [List.length_append]
      omega
    have here := free u.length (List.mem_range.mpr within)
    rw [List.drop_left] at here
    simpa using here
  · intro free place _
    rw [free _ (List.drop_suffix place t)]
    simp

/-- A word does not go on after a command. -/
theorem beginsWord_of_hit? (member : r ∈ serverRules) (whole : r.wholeWord = true)
    (takes : r.hit? t = some h) : Text.beginsWord (t.drop h.taken.length) = false := by
  by_cases permission : r = permissionRule
  · subst permission
    obtain ⟨call, x, -, rfl, stop, rfl⟩ := hit?_permissionRule.mp takes
    rw [List.drop_left]
    exact stop
  · obtain ⟨gap, x, rfl, -, stop, rfl⟩ := (hit?_of_ne member permission).mp takes
    rw [List.drop_left]
    exact stop whole

theorem first?_of_not_starts (other : ¬ns <+: x) : first? Rule.hit? serverRules x = none := by
  rw [first?_eq_none]
  intro r member
  by_contra found
  obtain ⟨h, takes⟩ := Option.ne_none_iff_exists'.mp found
  exact other (starts_of_hit member takes)

/-- A rule that takes something at a place is the only one. -/
theorem first?_of_hit? (member : r ∈ serverRules) (takes : r.hit? x = some h) :
    first? Rule.hit? serverRules x = some (r, h) := by
  cases found : first? Rule.hit? serverRules x with
  | none =>
    rw [first?_eq_none.mp found r member] at takes
    cases takes
  | some pair =>
    obtain ⟨r', h'⟩ := pair
    obtain ⟨member', takes'⟩ := first?_eq_some found
    obtain rfl := eq_of_hit? member member' takes takes'
    rw [takes] at takes'
    rw [Option.some.inj takes']

end RuleSet

/-- An update changes a text as often as there are places where the pattern of a rule matches, and
leaves it as it is only if there are none. What a pattern matches ends at the end of a word, if the
rule says so. -/
theorem update_replaces_matches (t : Text) :
    ∃ u, update RuleSet.server.rules t = .ok u ∧
      u.changes = (matchPlaces RuleSet.server.rules t).length ∧
      (u.text = t ↔ matchPlaces RuleSet.server.rules t = []) ∧
      ∀ r ∈ RuleSet.server.rules, r.wholeWord = true → ∀ place m,
        r.matchAt? t place = some m →
          Text.beginsWord (t.drop (place + m.text.length)) = false := by
  refine ⟨_, RuleSet.update_server t, ?_, ?_, ?_⟩
  · rw [Updated.changes_ofPass RuleSet.nodup_serverRules,
      RuleSet.orderly.changes_eq (fun _ => id), List.countP_eq_length_filter]
    exact congrArg List.length (RuleSet.matchPlaces_eq t).symm
  · exact (RuleSet.orderly.sweep_eq_self_iff fun _ => id).trans
      RuleSet.matchPlaces_eq_nil_iff.symm
  · intro r member whole place m matched
    obtain ⟨output, takes⟩ := (RuleSet.applicable member).hit?_of_matchAt? matched
    rw [← List.drop_drop]
    exact RuleSet.beginsWord_of_hit? member whole takes

theorem update_replaces_matches_copy :
    ∃ m, Rule.matchAt? ⟨"ns_cp", "file copy", true⟩ "columns_cp $a" 5 = some m ∧
      Text.beginsWord (("columns_cp $a" : Text).drop (5 + m.text.length)) = false := by
  obtain ⟨_, -, -, -, ends⟩ := update_replaces_matches "columns_cp $a"
  obtain ⟨m, matched⟩ :
      ∃ m, Rule.matchAt? ⟨"ns_cp", "file copy", true⟩ "columns_cp $a" 5 = some m :=
    Option.isSome_iff_exists.mp (by decide +kernel)
  exact ⟨m, matched, ends _ (by decide +kernel) rfl 5 m matched⟩

namespace RuleSet

/-- The rule for links between files. -/
def linkRule : Rule where
  pattern := "ns_link"
  replacement := "file link -hard"

theorem hit?_linkRule : linkRule.hit? "ns_link" = some ⟨"ns_link", "file link -hard"⟩ := by
  have phrase : linkRule.phrase = ⟨"ns_link", [], true, "file link -hard"⟩ := rfl
  have listed : linkRule ∈ serverRules :=
    List.mem_of_getElem? (show serverRules[9]? = some linkRule from rfl)
  rw [hit?_of_ne listed (by decide), phrase]
  exact ⟨[], [], rfl, ⟨by simp, by simp⟩, fun _ => rfl, rfl⟩

end RuleSet

/-- A command is replaced also where it is the end of a longer name. -/
theorem update_columns_link :
    (∀ place ∈ matchPlaces RuleSet.server.rules "columns_link",
      (("columns_link" : Text).take place).getLast?.any CodePoint.isWord = true) ∧
    ∃ u, update RuleSet.server.rules "columns_link" = .ok u ∧
      u.text = "columfile link -hard" ∧ u.changes = 1 := by
  constructor
  · intro place member
    change place ∈ matchPlaces RuleSet.serverRules "columns_link" at member
    rw [RuleSet.matchPlaces_eq] at member
    obtain ⟨within, found⟩ := List.mem_filter.mp member
    have start : RuleSet.ns <+: ("columns_link" : Text).drop place := by
      by_contra other
      rw [RuleSet.first?_of_not_starts other] at found
      cases found
    have sole : ∀ place < 13, RuleSet.ns <+: ("columns_link" : Text).drop place →
        (("columns_link" : Text).take place).getLast?.any CodePoint.isWord = true := by
      decide +kernel
    exact sole place (List.mem_range.mp within) start
  · have listed : RuleSet.linkRule ∈ RuleSet.serverRules := by decide +kernel
    have kept : ∀ k < ("colum" : Text).length, first? Rule.hit? RuleSet.serverRules
        (("colum" : Text).drop k ++ "ns_link") = none := by
      have other : ∀ k < 5, ¬RuleSet.ns <+: ("colum" : Text).drop k ++ "ns_link" := by
        decide +kernel
      exact fun k within => RuleSet.first?_of_not_starts (other k within)
    have parts : parts Rule.hit? RuleSet.serverRules "columns_link" =
        ("colum" : Text).map .kept ++
          [.changed RuleSet.linkRule ⟨"ns_link", "file link -hard"⟩] := by
      have last := parts_changed (h := ⟨"ns_link", "file link -hard"⟩) (x := []) (by decide)
        (RuleSet.first?_of_hit? listed RuleSet.hit?_linkRule)
      have cut : ("columns_link" : Text) = ("colum" : Text) ++ "ns_link" := by rfl
      rw [cut, parts_append_of_none kept]
      exact congrArg _ last
    refine ⟨_, RuleSet.update_server _, ?_, ?_⟩
    · rw [Updated.ofPass, sweep, parts]
      rfl
    · rw [Updated.changes_ofPass RuleSet.nodup_serverRules, parts]
      rfl

end Renewal
