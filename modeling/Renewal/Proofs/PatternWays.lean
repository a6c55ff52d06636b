import Mathlib.Data.List.Basic
import Renewal.Pattern.Search

/-! # The ways to match a pattern

`Pattern.Ways` says from which place a pattern leads to which, whatever way is preferred. The search
for a match goes exactly these ways: what it finds is the end of one, and it finds something if one
of them ends where the continuation accepts.
-/

namespace Renewal

theorem Text.getLast?_cons_eq_or (c : CodePoint) (t : Text) :
    (c :: t).getLast? = t.getLast?.or (some c) := by
  rw [← List.singleton_append, List.getLast?_append]
  rfl

namespace Spot

variable {s t u : Spot} {m n : Text}

/-- A place is reached from another by taking a text. -/
structure Takes (s : Spot) (m : Text) (t : Spot) : Prop where
  rest : s.rest = m ++ t.rest
  taken : t.taken = s.taken + m.length
  before : t.before = (m.getLast?).or s.before

theorem Takes.refl (s : Spot) : s.Takes [] s :=
  ⟨rfl, rfl, rfl⟩

theorem Takes.trans (first : s.Takes m t) (second : t.Takes n u) : s.Takes (m ++ n) u := by
  refine ⟨?_, ?_, ?_⟩
  · rw [first.rest, second.rest, List.append_assoc]
  · rw [second.taken, first.taken, List.length_append, Nat.add_assoc]
  · rw [second.before, first.before, List.getLast?_append, Option.or_assoc]

theorem takes_advance {c : CodePoint} {rest : Text} (here : s.rest = c :: rest) :
    s.Takes [c] (s.advance c rest) :=
  ⟨here, rfl, rfl⟩

theorem takes_advanceBy (here : m <+: s.rest) : s.Takes m (s.advanceBy m) := by
  obtain ⟨rest, here⟩ := here
  refine ⟨?_, rfl, ?_⟩
  · rw [advanceBy, ← here, List.drop_left]
  · simp [advanceBy]

theorem Takes.capture (takes : s.Takes m t) (number : Nat) (start : Spot) :
    s.Takes m (t.capture number start) :=
  ⟨takes.rest, takes.taken, takes.before⟩

theorem advance_advanceBy {c : CodePoint} {rest : Text} (here : s.rest = c :: rest) :
    (s.advance c rest).advanceBy m = s.advanceBy (c :: m) := by
  simp [advance, advanceBy, here, Text.getLast?_cons_eq_or, Nat.add_assoc, Nat.add_comm 1]

/-- What a group has matched is the text taken since it began. -/
theorem capture_groups (takes : s.Takes m t) (number : Nat) :
    (t.capture number s).groups = (number, m) :: t.groups := by
  rw [Spot.capture, takes.rest, takes.taken, Nat.add_sub_cancel_left, List.take_left]

end Spot

namespace Pattern

variable {p q : Pattern} {s t u : Spot} {after : Spot → Option Spot} {greed : Greed}
  {set : CharClass}

/-- Rounds one after the other; one that takes nothing is the last. -/
inductive Rounds (round : Spot → Spot → Prop) : Spot → Spot → Prop
  | stop (s : Spot) : Rounds round s s
  | last {s t : Spot} (leads : round s t) (idle : ¬s.taken < t.taken) : Rounds round s t
  | more {s t u : Spot} (leads : round s t) (onward : s.taken < t.taken)
      (others : Rounds round t u) : Rounds round s u

/-- From which place a pattern leads to which. -/
def Ways : Pattern → Spot → Spot → Prop
  | .empty, s, t => t = s
  | .item set, s, t => ∃ c rest, s.rest = c :: rest ∧ set.contains c = true ∧ t = s.advance c rest
  | .sequence p q, s, t => ∃ u, p.Ways s u ∧ q.Ways u t
  | .either p q, s, t => p.Ways s t ∨ q.Ways s t
  | .group number p, s, t => ∃ u, p.Ways s u ∧ t = u.capture number s
  | .span _ set, s, t => ∃ m, m <+: s.rest ∧ (∀ c ∈ m, set.contains c = true) ∧ t = s.advanceBy m
  | .many _ p, s, t => Rounds p.Ways s t
  | .atomic p, s, t => p.run s some = some t
  | .edge e, s, t => e.holds s = true ∧ t = s
  | .ahead p, s, t => ∃ u, p.run s some = some u ∧ t = { s with groups := u.groups }
  | .notAhead p, s, t => p.run s some = none ∧ t = s
  | .again number, s, t => ∃ m, s.groups.lookup number = some m ∧ m <+: s.rest ∧ t = s.advanceBy m

theorem orElse_eq_some {first second : Option Spot} (found : (first <|> second) = some t) :
    first = some t ∨ second = some t := by
  cases first with
  | none => exact .inr found
  | some _ => exact .inl found

theorem isSome_orElse {first second : Option Spot} :
    (first <|> second).isSome = true ↔ first.isSome = true ∨ second.isSome = true := by
  cases first <;> simp

/-- The two ways to go on from a place are tried in the order that is preferred. -/
theorem greed_eq_some {another rest : Option Spot}
    (found : (match greed with
      | .most => another <|> rest
      | .least => rest <|> another) = some t) : another = some t ∨ rest = some t := by
  cases greed with
  | most => exact orElse_eq_some found
  | least => exact (orElse_eq_some found).symm

theorem isSome_greed {another rest : Option Spot}
    (found : another.isSome = true ∨ rest.isSome = true) :
    (match greed with
      | .most => another <|> rest
      | .least => rest <|> another).isSome = true := by
  cases greed with
  | most => exact isSome_orElse.mpr found
  | least => exact isSome_orElse.mpr found.symm

theorem spanFrom_cons (c : CodePoint) (rest : Text) :
    spanFrom greed set after (c :: rest) s =
      if set.contains c then
        match greed with
        | .most => spanFrom greed set after rest (s.advance c rest) <|> after s
        | .least => after s <|> spanFrom greed set after rest (s.advance c rest)
      else after s := by
  cases greed <;> rfl

theorem spanFrom_sound {text : Text} (here : s.rest = text)
    (found : spanFrom greed set after text s = some t) :
    ∃ m, m <+: s.rest ∧ (∀ c ∈ m, set.contains c = true) ∧ after (s.advanceBy m) = some t := by
  have none : ∀ {s : Spot}, after s = some t →
      ∃ m, m <+: s.rest ∧ (∀ c ∈ m, set.contains c = true) ∧ after (s.advanceBy m) = some t :=
    fun accepted => ⟨[], List.nil_prefix, by simp, by simpa [Spot.advanceBy] using accepted⟩
  induction text generalizing s with
  | nil => exact none found
  | cons c rest ih =>
    rw [spanFrom_cons] at found
    split at found
    · rename_i inside
      rcases greed_eq_some found with longer | accepted
      · obtain ⟨m, onward, each, accepted⟩ := ih rfl longer
        refine ⟨c :: m, ?_, ?_, ?_⟩
        · rw [here]
          exact List.cons_prefix_cons.mpr ⟨rfl, onward⟩
        · exact List.forall_mem_cons.mpr ⟨inside, each⟩
        · rwa [← Spot.advance_advanceBy here]
      · exact none accepted
    · exact none found

theorem spanFrom_complete {text m : Text} (here : s.rest = text) (onward : m <+: text)
    (each : ∀ c ∈ m, set.contains c = true) (accepted : (after (s.advanceBy m)).isSome = true) :
    (spanFrom greed set after text s).isSome = true := by
  induction text generalizing s m with
  | nil =>
    obtain rfl := List.prefix_nil.mp onward
    simpa [spanFrom, Spot.advanceBy] using accepted
  | cons c rest ih =>
    rw [spanFrom_cons]
    cases m with
    | nil =>
      have stops : (after s).isSome = true := by simpa [Spot.advanceBy] using accepted
      split
      · exact isSome_greed (.inr stops)
      · exact stops
    | cons d m =>
      obtain ⟨rfl, shorter⟩ := List.cons_prefix_cons.mp onward
      obtain ⟨inside, each⟩ := List.forall_mem_cons.mp each
      rw [if_pos inside]
      refine isSome_greed (.inl (ih rfl shorter each ?_))
      rwa [Spot.advance_advanceBy here]

theorem rounds_sound {round : Spot → (Spot → Option Spot) → Option Spot} {left : Text}
    (each : ∀ {s after t}, round s after = some t → ∃ u, p.Ways s u ∧ after u = some t)
    (found : rounds greed round after left s = some t) :
    ∃ u, Rounds p.Ways s u ∧ after u = some t := by
  have further : ∀ {s u : Spot}, p.Ways s u → Rounds p.Ways s u := by
    intro s u leads
    by_cases onward : s.taken < u.taken
    · exact .more leads onward (.stop u)
    · exact .last leads onward
  induction left generalizing s with
  | nil =>
    rcases greed_eq_some found with another | accepted
    · obtain ⟨u, leads, accepted⟩ := each another
      exact ⟨u, further leads, accepted⟩
    · exact ⟨s, .stop s, accepted⟩
  | cons c left ih =>
    rcases greed_eq_some found with another | accepted
    · obtain ⟨u, leads, rest⟩ := each another
      split at rest
      · rename_i onward
        obtain ⟨v, others, accepted⟩ := ih rest
        exact ⟨v, .more leads onward others, accepted⟩
      · exact ⟨u, further leads, rest⟩
    · exact ⟨s, .stop s, accepted⟩

/-- What the search finds is the end of a way that the continuation accepts. -/
theorem run_sound (found : p.run s after = some t) : ∃ u, p.Ways s u ∧ after u = some t := by
  induction p generalizing s after t with
  | empty => exact ⟨s, rfl, found⟩
  | item set =>
    rw [run] at found
    split at found
    · cases found
    · rename_i c rest here
      split at found
      · rename_i inside
        exact ⟨_, ⟨c, rest, here, inside, rfl⟩, found⟩
      · cases found
  | sequence p q first second =>
    obtain ⟨u, leads, rest⟩ := first found
    obtain ⟨v, onward, accepted⟩ := second rest
    exact ⟨v, ⟨u, leads, onward⟩, accepted⟩
  | either p q first second =>
    rcases orElse_eq_some found with found | found
    · obtain ⟨u, leads, accepted⟩ := first found
      exact ⟨u, .inl leads, accepted⟩
    · obtain ⟨u, leads, accepted⟩ := second found
      exact ⟨u, .inr leads, accepted⟩
  | group number p ih =>
    obtain ⟨u, leads, accepted⟩ := ih found
    exact ⟨_, ⟨u, leads, rfl⟩, accepted⟩
  | span greed set =>
    obtain ⟨m, onward, each, accepted⟩ := spanFrom_sound rfl found
    exact ⟨_, ⟨m, onward, each, rfl⟩, accepted⟩
  | many greed p ih => exact rounds_sound ih found
  | atomic p ih =>
    obtain ⟨u, leads, accepted⟩ := Option.bind_eq_some_iff.mp found
    exact ⟨u, leads, accepted⟩
  | edge e =>
    rw [run] at found
    split at found
    · rename_i holds
      exact ⟨s, ⟨holds, rfl⟩, found⟩
    · cases found
  | ahead p ih =>
    obtain ⟨u, leads, accepted⟩ := Option.bind_eq_some_iff.mp found
    exact ⟨_, ⟨u, leads, rfl⟩, accepted⟩
  | notAhead p ih =>
    rw [run] at found
    split at found
    · cases found
    · rename_i nothing
      exact ⟨s, ⟨by simpa using nothing, rfl⟩, found⟩
  | again number =>
    rw [run] at found
    split at found
    · cases found
    · rename_i m known
      split at found
      · rename_i here
        exact ⟨_, ⟨m, known, List.isPrefixOf_iff_prefix.mp here, rfl⟩, found⟩
      · cases found

/-- A way takes a text. -/
theorem Ways.takes (leads : p.Ways s t) : ∃ m, s.Takes m t := by
  induction p generalizing s t with
  | empty =>
    obtain rfl := leads
    exact ⟨[], .refl t⟩
  | item set =>
    obtain ⟨c, rest, here, -, rfl⟩ := leads
    exact ⟨[c], Spot.takes_advance here⟩
  | sequence p q first second =>
    obtain ⟨u, leads, onward⟩ := leads
    obtain ⟨m, takes⟩ := first leads
    obtain ⟨n, more⟩ := second onward
    exact ⟨m ++ n, takes.trans more⟩
  | either p q first second =>
    rcases leads with leads | leads
    · exact first leads
    · exact second leads
  | group number p ih =>
    obtain ⟨u, leads, rfl⟩ := leads
    obtain ⟨m, takes⟩ := ih leads
    exact ⟨m, takes.capture number s⟩
  | span greed set =>
    obtain ⟨m, here, -, rfl⟩ := leads
    exact ⟨m, Spot.takes_advanceBy here⟩
  | many greed p ih =>
    induction leads with
    | stop s => exact ⟨[], .refl s⟩
    | last leads idle => exact ih leads
    | more leads onward others more =>
      obtain ⟨m, takes⟩ := ih leads
      obtain ⟨n, more⟩ := more
      exact ⟨m ++ n, takes.trans more⟩
  | atomic p ih =>
    obtain ⟨u, way, same⟩ := run_sound leads
    obtain rfl := Option.some.inj same
    exact ih way
  | edge e =>
    obtain ⟨-, rfl⟩ := leads
    exact ⟨[], .refl t⟩
  | ahead p ih =>
    obtain ⟨u, -, rfl⟩ := leads
    exact ⟨[], rfl, rfl, rfl⟩
  | notAhead p ih =>
    obtain ⟨-, rfl⟩ := leads
    exact ⟨[], .refl t⟩
  | again number =>
    obtain ⟨m, -, here, rfl⟩ := leads
    exact ⟨m, Spot.takes_advanceBy here⟩

theorem rounds_complete {round : Spot → (Spot → Option Spot) → Option Spot} {left : Text}
    (each : ∀ {s u after}, p.Ways s u → (after u).isSome = true → (round s after).isSome = true)
    (room : s.rest.length ≤ left.length) (leads : Rounds p.Ways s u)
    (accepted : (after u).isSome = true) : (rounds greed round after left s).isSome = true := by
  induction leads generalizing left with
  | stop s => cases left <;> exact isSome_greed (.inr accepted)
  | @last s t leads idle =>
    cases left with
    | nil => exact isSome_greed (.inl (each leads accepted))
    | cons c left =>
      refine isSome_greed (.inl (each leads ?_))
      rwa [if_neg idle]
  | @more s t u leads onward others ih =>
    obtain ⟨m, takes⟩ := leads.takes
    have shorter : t.rest.length < s.rest.length := by
      have length := congrArg List.length takes.rest
      rw [List.length_append] at length
      have taken := takes.taken
      omega
    cases left with
    | nil => exact absurd room (by simp only [List.length_nil]; omega)
    | cons c left =>
      refine isSome_greed (.inl (each leads ?_))
      rw [if_pos onward]
      exact ih (by simp only [List.length_cons] at room; omega) accepted

/-- The search finds something if a way ends where the continuation accepts. -/
theorem run_complete (leads : p.Ways s u) (accepted : (after u).isSome = true) :
    (p.run s after).isSome = true := by
  induction p generalizing s u after with
  | empty =>
    obtain rfl := leads
    exact accepted
  | item set =>
    obtain ⟨c, rest, here, inside, rfl⟩ := leads
    rw [run, here]
    simpa only [inside, ↓reduceIte] using accepted
  | sequence p q first second =>
    obtain ⟨t, leads, onward⟩ := leads
    exact first leads (second onward accepted)
  | either p q first second =>
    rcases leads with leads | leads
    · exact isSome_orElse.mpr (.inl (first leads accepted))
    · exact isSome_orElse.mpr (.inr (second leads accepted))
  | group number p ih =>
    obtain ⟨t, leads, rfl⟩ := leads
    exact ih leads accepted
  | span greed set =>
    obtain ⟨m, here, each, rfl⟩ := leads
    exact spanFrom_complete rfl here each accepted
  | many greed p ih => exact rounds_complete ih (Nat.le_refl _) leads accepted
  | atomic p ih =>
    change (p.run s some >>= after).isSome = true
    rw [show p.run s some = some u from leads]
    exact accepted
  | edge e =>
    obtain ⟨holds, rfl⟩ := leads
    rwa [run, if_pos holds]
  | ahead p ih =>
    obtain ⟨t, leads, rfl⟩ := leads
    rw [run, leads]
    exact accepted
  | notAhead p ih =>
    obtain ⟨nothing, rfl⟩ := leads
    rwa [run, nothing, if_neg (by simp)]
  | again number =>
    obtain ⟨m, known, here, rfl⟩ := leads
    rw [run, known]
    simpa only [List.isPrefixOf_iff_prefix.mpr here, ↓reduceIte] using accepted

end Pattern

end Renewal
