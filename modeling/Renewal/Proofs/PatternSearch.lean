import Renewal.Proofs.PatternWays
import Renewal.Proofs.Sweep

/-! # What a search finds

The ways of the patterns that are put together of given texts and runs of code points, and what they
say of a search. A substitution whose pattern takes something and does not look back is a pass of a
single rule.
-/

namespace Renewal

theorem Text.append_prefix_iff {m n r : Text} :
    m ++ n <+: r ↔ m <+: r ∧ n <+: r.drop m.length := by
  constructor
  · rintro ⟨rest, rfl⟩
    rw [List.append_assoc, List.drop_left]
    exact ⟨List.prefix_append _ _, List.prefix_append _ _⟩
  · rintro ⟨⟨rest, rfl⟩, onward⟩
    rw [List.drop_left] at onward
    exact (List.prefix_append_right_inj m).mpr onward

theorem Spot.advanceBy_advanceBy {s : Spot} {m n : Text} :
    (s.advanceBy m).advanceBy n = s.advanceBy (m ++ n) := by
  simp [advanceBy, Nat.add_assoc, List.getLast?_append, Option.or_assoc]

namespace Piece

/-- What a piece becomes in a substitution. -/
def output (replacement : Match → Text) : Piece → Text
  | .kept c => [c]
  | .hit m => replacement m

def isHit : Piece → Bool
  | .kept _ => false
  | .hit _ => true

end Piece

namespace Pattern

variable {p : Pattern} {ps qs : List Pattern} {s t : Spot} {w : Text} {set : CharClass}
  {before : Option CodePoint} {rest : Text} {m : Match}

theorem ways_all_cons : (all (p :: ps)).Ways s t ↔ ∃ u, p.Ways s u ∧ (all ps).Ways u t := by
  cases ps with
  | nil => exact ⟨fun leads => ⟨t, leads, rfl⟩, fun ⟨u, leads, same⟩ => by rwa [same]⟩
  | cons q qs => rfl

theorem ways_all_append :
    (all (ps ++ qs)).Ways s t ↔ ∃ u, (all ps).Ways s u ∧ (all qs).Ways u t := by
  induction ps generalizing s with
  | nil => exact ⟨fun leads => ⟨s, rfl, leads⟩, fun ⟨u, same, leads⟩ => by rwa [← same]⟩
  | cons p ps ih =>
    rw [List.cons_append, ways_all_cons]
    simp only [ih, ways_all_cons]
    constructor
    · rintro ⟨u, first, v, second, third⟩
      exact ⟨v, ⟨u, first, second⟩, third⟩
    · rintro ⟨v, ⟨u, first, second⟩, third⟩
      exact ⟨u, first, v, second, third⟩

theorem ways_one {c : CodePoint} :
    (one c).Ways s t ↔ ∃ rest, s.rest = c :: rest ∧ t = s.advance c rest := by
  simp [one, Ways, CharClass.contains, ClassItem.contains]

theorem ways_exactly : (exactly w).Ways s t ↔ w <+: s.rest ∧ t = s.advanceBy w := by
  induction w generalizing s with
  | nil => simp [exactly, all, Ways, Spot.advanceBy]
  | cons c w ih =>
    rw [exactly, List.map_cons, ways_all_cons]
    constructor
    · rintro ⟨u, first, others⟩
      obtain ⟨rest, here, rfl⟩ := ways_one.mp first
      obtain ⟨onward, rfl⟩ := ih.mp others
      refine ⟨?_, Spot.advance_advanceBy here⟩
      rw [here]
      exact List.cons_prefix_cons.mpr ⟨rfl, onward⟩
    · rintro ⟨⟨rest, here⟩, rfl⟩
      have here : s.rest = c :: (w ++ rest) := here.symm
      refine ⟨s.advance c (w ++ rest), ways_one.mpr ⟨_, here, rfl⟩, ?_⟩
      exact ih.mpr ⟨List.prefix_append _ _, (Spot.advance_advanceBy here).symm⟩

/-- At least one code point, and all of a set. -/
structure IsRun (set : CharClass) (m : Text) : Prop where
  written : m ≠ []
  inside : ∀ c ∈ m, set.contains c = true

theorem ways_atLeastOnce {greed : Greed} : (atLeastOnce (.item set) greed).Ways s t ↔
    ∃ m, IsRun set m ∧ m <+: s.rest ∧ t = s.advanceBy m := by
  constructor
  · rintro ⟨u, ⟨c, rest, here, inside, rfl⟩, m, onward, each, rfl⟩
    refine ⟨c :: m, ⟨by simp, List.forall_mem_cons.mpr ⟨inside, each⟩⟩, ?_,
      Spot.advance_advanceBy here⟩
    rw [here]
    exact List.cons_prefix_cons.mpr ⟨rfl, onward⟩
  · rintro ⟨m, ⟨written, each⟩, ⟨rest, here⟩, rfl⟩
    obtain ⟨c, m, rfl⟩ := List.exists_cons_of_ne_nil written
    have here : s.rest = c :: (m ++ rest) := here.symm
    obtain ⟨inside, each⟩ := List.forall_mem_cons.mp each
    exact ⟨_, ⟨c, _, here, inside, rfl⟩, m, List.prefix_append _ _, each,
      (Spot.advance_advanceBy here).symm⟩

/-- A pattern takes the texts with a property, and remembers nothing. -/
abbrev Spells (p : Pattern) (P : Text → Prop) : Prop :=
  ∀ s t, p.Ways s t ↔ ∃ m, P m ∧ m <+: s.rest ∧ t = s.advanceBy m

theorem spells_exactly : (exactly w).Spells (· = w) := by
  intro s t
  simp only [ways_exactly, exists_eq_left]

theorem spells_atLeastOnce {greed : Greed} : (atLeastOnce (.item set) greed).Spells (IsRun set) :=
  fun _ _ => ways_atLeastOnce

theorem Spells.sequence {q : Pattern} {P Q : Text → Prop} (first : p.Spells P)
    (second : q.Spells Q) :
    (Pattern.sequence p q).Spells fun m => ∃ a b, P a ∧ Q b ∧ m = a ++ b := by
  intro s t
  constructor
  · rintro ⟨u, leads, leads'⟩
    obtain ⟨a, isFirst, here, rfl⟩ := (first _ _).mp leads
    obtain ⟨b, isSecond, there, rfl⟩ := (second _ _).mp leads'
    refine ⟨a ++ b, ⟨a, b, isFirst, isSecond, rfl⟩, ?_, Spot.advanceBy_advanceBy⟩
    exact Text.append_prefix_iff.mpr ⟨here, there⟩
  · rintro ⟨_, ⟨a, b, isFirst, isSecond, rfl⟩, onward, rfl⟩
    obtain ⟨here, there⟩ := Text.append_prefix_iff.mp onward
    exact ⟨_, (first _ _).mpr ⟨a, isFirst, here, rfl⟩,
      (second _ _).mpr ⟨b, isSecond, there, Spot.advanceBy_advanceBy.symm⟩⟩

theorem Spells.ways_group {P : Text → Prop} (spells : p.Spells P) {number : Nat} :
    (group number p).Ways s t ↔ ∃ m, P m ∧ m <+: s.rest ∧
      t = { s.advanceBy m with groups := (number, m) :: s.groups } := by
  have captured : ∀ {m}, m <+: s.rest → (s.advanceBy m).capture number s =
      { s.advanceBy m with groups := (number, m) :: s.groups } := by
    intro m onward
    have groups := Spot.capture_groups (Spot.takes_advanceBy onward) number
    rw [Spot.capture] at groups ⊢
    exact congrArg (fun groups => { s.advanceBy m with groups }) groups
  constructor
  · rintro ⟨u, leads, rfl⟩
    obtain ⟨m, holds, onward, rfl⟩ := (spells _ _).mp leads
    exact ⟨m, holds, onward, captured onward⟩
  · rintro ⟨m, holds, onward, rfl⟩
    exact ⟨_, (spells _ _).mpr ⟨m, holds, onward, rfl⟩, (captured onward).symm⟩

theorem contains_blank {c : CodePoint} : CharClass.contains ⟨[.blank], false⟩ c = c.isBlank := by
  simp [CharClass.contains, ClassItem.contains]

theorem contains_one {c d : CodePoint} :
    CharClass.contains ⟨[.one d], false⟩ c = true ↔ c = d := by
  simp [CharClass.contains, ClassItem.contains]

theorem ways_blanks : blanks.Ways s t ↔
    ∃ m, m <+: s.rest ∧ (∀ c ∈ m, c.isBlank = true) ∧ t = s.advanceBy m := by
  simp only [blanks, oneOf, anyNumber, Ways, contains_blank]

theorem matchAt?_eq_some (found : p.matchAt? before rest = some m) :
    ∃ t, p.Ways ⟨0, before, rest, []⟩ t ∧ m = matchTo rest t := by
  obtain ⟨t, runs, rfl⟩ := Option.map_eq_some_iff.mp found
  obtain ⟨u, leads, same⟩ := run_sound runs
  obtain rfl := Option.some.inj same
  exact ⟨u, leads, rfl⟩

theorem matchAt?_isSome (leads : p.Ways ⟨0, before, rest, []⟩ t) :
    (p.matchAt? before rest).isSome = true := by
  rw [matchAt?, Option.isSome_map]
  exact run_complete leads rfl

theorem mem_matchesAt (member : m ∈ p.matchesAt before rest) :
    ∃ t, p.Ways ⟨0, before, rest, []⟩ t ∧ m = matchTo rest t := by
  unfold matchesAt at member
  split at member
  · cases member
  · rename_i preferred found
    split at member
    · rcases List.mem_cons.mp member with rfl | member
      · exact matchAt?_eq_some found
      · obtain ⟨t, runs, rfl⟩ := Option.map_eq_some_iff.mp (Option.mem_toList.mp member)
        obtain ⟨u, leads, accepted⟩ := run_sound runs
        split at accepted
        · obtain rfl := Option.some.inj accepted
          exact ⟨u, leads, rfl⟩
        · cases accepted
    · obtain rfl := List.mem_singleton.mp member
      exact matchAt?_eq_some found

/-- How far the last match at a place goes. -/
def reach (p : Pattern) (before : Option CodePoint) (rest : Text) : Nat :=
  ((p.matchesAt before rest).getLast?.map (·.text.length)).getD 0

theorem exists_of_lt_reach {k : Nat} (within : k < p.reach before rest) :
    ∃ m ∈ p.matchesAt before rest, k < m.text.length := by
  rw [reach] at within
  cases last : (p.matchesAt before rest).getLast? with
  | none =>
    rw [last] at within
    exact absurd within (Nat.not_lt_zero k)
  | some m =>
    rw [last] at within
    exact ⟨m, List.mem_of_getLast? last, within⟩

theorem hit_mem_piecesFrom_nil :
    .hit m ∈ p.piecesFrom 0 before [] ↔ m ∈ p.matchesAt before [] := by
  simp [piecesFrom]

/-- After the matches at a place, a search goes on where the last of them ends. -/
theorem hit_mem_piecesFrom_cons {c : CodePoint} :
    .hit m ∈ p.piecesFrom 0 before (c :: rest) ↔ m ∈ p.matchesAt before (c :: rest) ∨
      .hit m ∈ p.piecesFrom (p.reach before (c :: rest) - 1) (some c) rest := by
  have here : .hit m ∈ (p.matchesAt before (c :: rest)).map Piece.hit ↔
      m ∈ p.matchesAt before (c :: rest) := by
    simp
  rw [piecesFrom, reach]
  split
  · rename_i nothing
    rw [nothing, List.mem_append, here, List.mem_cons]
    simp
  · rw [List.mem_append, here]

theorem mem_piecesFrom {skip : Nat} (member : .hit m ∈ p.piecesFrom skip before rest) :
    ∃ u x, rest = u ++ x ∧ m ∈ p.matchesAt (u.getLast?.or before) x := by
  induction rest generalizing skip before with
  | nil =>
    cases skip with
    | zero => exact ⟨[], [], rfl, hit_mem_piecesFrom_nil.mp member⟩
    | succ skip => cases member
  | cons c rest ih =>
    have further : ∀ {skip}, .hit m ∈ p.piecesFrom skip (some c) rest →
        ∃ u x, c :: rest = u ++ x ∧ m ∈ p.matchesAt (u.getLast?.or before) x := by
      intro skip member
      obtain ⟨u, x, rfl, found⟩ := ih member
      refine ⟨c :: u, x, rfl, ?_⟩
      rwa [Text.getLast?_cons_eq_or, Option.or_assoc]
    cases skip with
    | succ skip => exact further member
    | zero =>
      rcases hit_mem_piecesFrom_cons.mp member with here | later
      · exact ⟨[], c :: rest, rfl, here⟩
      · exact further later

/-- A match that a search finds is a way to match the pattern at some place of the text. -/
theorem mem_findAll {text : Text} (member : m ∈ p.findAll text) :
    ∃ u x t, text = u ++ x ∧ p.Ways ⟨0, u.getLast?, x, []⟩ t ∧ m = matchTo x t := by
  obtain ⟨piece, inside, same⟩ := List.mem_filterMap.mp member
  cases piece with
  | kept c => cases same
  | hit m =>
    obtain rfl := Option.some.inj same
    obtain ⟨u, x, cut, found⟩ := mem_piecesFrom inside
    obtain ⟨t, leads, same⟩ := mem_matchesAt found
    rw [Option.or_none] at leads
    exact ⟨u, x, t, cut, leads, same⟩

theorem matchesAt_ne_nil (leads : p.Ways ⟨0, before, rest, []⟩ t) :
    p.matchesAt before rest ≠ [] := by
  obtain ⟨m, found⟩ := Option.isSome_iff_exists.mp (matchAt?_isSome leads)
  simp only [matchesAt, found]
  split
  · exact List.cons_ne_nil _ _
  · exact List.cons_ne_nil _ _

/-- Where a pattern can be matched, the search finds a match, unless the place was skipped or the
search has come by it in a match that began before. -/
theorem exists_mem_piecesFrom {u x : Text} {skip : Nat} (cut : rest = u ++ x)
    (matched : p.matchesAt (u.getLast?.or before) x ≠ []) :
    u.length < skip ∨ ∃ v d m, u = v ++ d ∧ .hit m ∈ p.piecesFrom skip before rest ∧
      m ∈ p.matchesAt (v.getLast?.or before) (d ++ x) ∧ (d = [] ∨ d.length < m.text.length) := by
  induction rest generalizing skip before u with
  | nil =>
    obtain ⟨rfl, rfl⟩ := List.append_eq_nil_iff.mp cut.symm
    cases skip with
    | succ skip => exact .inl (Nat.succ_pos skip)
    | zero =>
      obtain ⟨m, found⟩ := List.exists_mem_of_ne_nil _ matched
      exact .inr ⟨[], [], m, rfl, hit_mem_piecesFrom_nil.mpr found, found, .inl rfl⟩
  | cons c rest ih =>
    cases u with
    | nil =>
      obtain rfl : c :: rest = x := cut
      cases skip with
      | succ skip => exact .inl (Nat.succ_pos skip)
      | zero =>
        obtain ⟨m, found⟩ := List.exists_mem_of_ne_nil _ matched
        exact .inr ⟨[], [], m, rfl, hit_mem_piecesFrom_cons.mpr (.inl found), found, .inl rfl⟩
    | cons c' u =>
      obtain ⟨rfl, others⟩ := List.cons.inj cut
      have others : rest = u ++ x := others
      have last : ∀ v : Text, (c :: v).getLast?.or before = v.getLast?.or (some c) := by
        intro v
        rw [Text.getLast?_cons_eq_or, Option.or_assoc]
        rfl
      rw [last] at matched
      have onward : ∀ {skip}, ¬u.length < skip →
          ∃ v d m, c :: u = v ++ d ∧ .hit m ∈ p.piecesFrom skip (some c) rest ∧
            m ∈ p.matchesAt (v.getLast?.or before) (d ++ x) ∧
            (d = [] ∨ d.length < m.text.length) := by
        intro skip reached
        obtain ⟨v, d, m, rfl, found, here, inside⟩ := (ih others matched).resolve_left reached
        refine ⟨c :: v, d, m, rfl, found, ?_, inside⟩
        rwa [last]
      cases skip with
      | succ skip =>
        by_cases skipped : u.length < skip
        · exact .inl (Nat.succ_lt_succ skipped)
        · exact .inr (onward skipped)
      | zero =>
        right
        by_cases inside : u.length < p.reach before (c :: rest) - 1
        · -- The match that has just been found goes on past the place.
          obtain ⟨m, found, long⟩ := exists_of_lt_reach (Nat.add_lt_of_lt_sub inside)
          refine ⟨[], c :: u, m, rfl, hit_mem_piecesFrom_cons.mpr (.inl found), ?_, .inr long⟩
          rwa [List.cons_append, ← others]
        · obtain ⟨v, d, m, parts, found, here⟩ := onward inside
          exact ⟨v, d, m, parts, hit_mem_piecesFrom_cons.mpr (.inr found), here⟩

/-- Where a pattern can be matched, a match is found that begins there, or that began before and
goes on past that place. -/
theorem exists_mem_findAll {text u x : Text} (cut : text = u ++ x)
    (leads : p.Ways ⟨0, u.getLast?, x, []⟩ t) :
    ∃ v d t', u = v ++ d ∧ p.Ways ⟨0, v.getLast?, d ++ x, []⟩ t' ∧
      matchTo (d ++ x) t' ∈ p.findAll text ∧ (d = [] ∨ d.length < t'.taken) := by
  have matched := matchesAt_ne_nil leads
  rw [← Option.or_none (o := u.getLast?)] at matched
  obtain ⟨v, d, m, parts, found, here, inside⟩ :=
    (exists_mem_piecesFrom cut matched).resolve_left (Nat.not_lt_zero u.length)
  obtain ⟨t', leads', rfl⟩ := mem_matchesAt here
  rw [Option.or_none] at leads'
  refine ⟨v, d, t', parts, leads', List.mem_filterMap.mpr ⟨_, found, rfl⟩, ?_⟩
  apply inside.imp_right
  intro shorter
  rw [matchTo, List.length_take] at shorter
  omega

/-- Every match takes something, and none depends on what stands before it. -/
structure Steady (p : Pattern) : Prop where
  proper : ∀ {t m}, p.matchAt? none t = some m → m.text ≠ []
  forward : ∀ before t, p.matchAt? before t = p.matchAt? none t

/-- What a substitution takes at the start of a text and puts in its place. -/
def hit? (p : Pattern) (replacement : Match → Text) (t : Text) : Option Hit :=
  (p.matchAt? none t).map fun m => ⟨m.text, replacement m⟩

/-- A pattern that can be read in one way only at the start of a text, whatever stands before. -/
structure Reads (p : Pattern) (Reading : Text → Match → Prop) : Prop where
  sound : ∀ {before rest t}, p.Ways ⟨0, before, rest, []⟩ t → Reading rest (matchTo rest t)
  complete : ∀ {rest m} before, Reading rest m → ∃ t, p.Ways ⟨0, before, rest, []⟩ t
  unique : ∀ {rest m m'}, Reading rest m → Reading rest m' → m = m'
  proper : ∀ {rest m}, Reading rest m → m.text ≠ []

namespace Reads

variable {Reading : Text → Match → Prop}

theorem matchAt?_eq_some_iff (reads : p.Reads Reading) :
    p.matchAt? before rest = some m ↔ Reading rest m := by
  have sound : ∀ {m}, p.matchAt? before rest = some m → Reading rest m := by
    intro m found
    obtain ⟨t, leads, rfl⟩ := matchAt?_eq_some found
    exact reads.sound leads
  constructor
  · exact sound
  · intro reading
    obtain ⟨t, leads⟩ := reads.complete before reading
    obtain ⟨m', found⟩ := Option.isSome_iff_exists.mp (matchAt?_isSome leads)
    rw [found, reads.unique reading (sound found)]

theorem steady (reads : p.Reads Reading) : p.Steady := by
  constructor
  · intro t m found
    exact reads.proper (reads.matchAt?_eq_some_iff.mp found)
  · intro before t
    apply Option.ext
    intro m
    rw [reads.matchAt?_eq_some_iff, reads.matchAt?_eq_some_iff]

theorem hit?_eq_some_iff (reads : p.Reads Reading) {replacement : Match → Text} {h : Hit} :
    p.hit? replacement rest = some h ↔ ∃ m, Reading rest m ∧ h = ⟨m.text, replacement m⟩ := by
  rw [Pattern.hit?, Option.map_eq_some_iff]
  simp only [reads.matchAt?_eq_some_iff, eq_comm]

end Reads

theorem Steady.matchesAt (steady : Steady p) (before : Option CodePoint) (t : Text) :
    p.matchesAt before t = (p.matchAt? none t).toList := by
  rw [Pattern.matchesAt, steady.forward]
  cases found : p.matchAt? none t with
  | none => rfl
  | some m => simp [steady.proper found]

theorem Steady.matchAt?_nil (steady : Steady p) : p.matchAt? none [] = none := by
  cases found : p.matchAt? none [] with
  | none => rfl
  | some m =>
    obtain ⟨t, leads, rfl⟩ := matchAt?_eq_some found
    exact absurd (by simp [matchTo]) (steady.proper found)

open Sweep

variable {ι : Type} [DecidableEq ι] {hits : ι → Text → Option Hit} {r : ι}
  {replacement : Match → Text}

/-- A substitution is a pass of one rule. -/
theorem Steady.replaceAll_eq (steady : Steady p) (same : ∀ t, hits r t = p.hit? replacement t)
    (t : Text) :
    p.replaceAll replacement t = (sweep hits [r] t, count r (parts hits [r] t)) := by
  have each : ∀ skip before,
      (p.piecesFrom skip before t).flatMap (Piece.output replacement) =
        (partsFrom hits [r] skip t).flatMap Part.output ∧
      (p.piecesFrom skip before t).countP Piece.isHit = count r (partsFrom hits [r] skip t) := by
    induction t with
    | nil =>
      intro skip before
      cases skip with
      | zero =>
        rw [piecesFrom, steady.matchesAt, steady.matchAt?_nil]
        exact ⟨rfl, rfl⟩
      | succ skip => exact ⟨rfl, rfl⟩
    | cons c rest ih =>
      intro skip before
      cases skip with
      | succ skip => exact ih skip (some c)
      | zero =>
        have takes := same (c :: rest)
        rw [piecesFrom, partsFrom, steady.matchesAt, first?_singleton, takes, hit?]
        cases found : p.matchAt? none (c :: rest) with
        | none =>
          obtain ⟨text, counts⟩ := ih 0 (some c)
          simp [text, counts, count_kept, Part.output, Piece.output, Piece.isHit]
        | some m =>
          have taken : m.text.length ≠ 0 := by
            simpa using steady.proper found
          obtain ⟨text, counts⟩ := ih (m.text.length - 1) (some c)
          simp [text, counts, count_changed, List.countP_cons, Part.output, Piece.output,
            Piece.isHit, taken]
  obtain ⟨text, counts⟩ := each 0 none
  exact Prod.ext text counts

end Pattern

end Renewal
