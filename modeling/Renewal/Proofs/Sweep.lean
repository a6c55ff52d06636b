import Mathlib.Data.List.Basic
import Renewal.Text.Word

/-! # Rewriting in one pass

Rules that are applied one after the other each read what the ones before have written. Where what
the rules take does not overlap, and what they write neither holds nor completes something that
another takes, this comes to the same as one pass from left to right in which all rules are tried at
each place (`Sweep.twofold`). The counts add up as well.
-/

namespace Renewal

/-- Whether a text begins with a word character. -/
def Text.beginsWord (t : Text) : Bool :=
  t.head?.any CodePoint.isWord

/-- What is taken at the start of a text, and what is put in its place. -/
structure Hit where
  taken : Text
  output : Text

namespace Sweep

variable {ι : Type} {hits : ι → Text → Option Hit} {rules : List ι} {among : Set ι} {r r' : ι}
  {t x y : Text} {h h' : Hit}

/-- A part of a text in a pass. -/
inductive Part (ι : Type) where
  | kept (c : CodePoint)
  | changed (r : ι) (h : Hit)

/-- What a part becomes. -/
def Part.output : Part ι → Text
  | .kept c => [c]
  | .changed _ h => h.output

/-- The first of some rules that takes something at the start of a text. -/
def first? (hits : ι → Text → Option Hit) (rules : List ι) (t : Text) : Option (ι × Hit) :=
  rules.findSome? fun r => (hits r t).map fun h => (r, h)

/-- The parts of a text of which the first `skip` code points have been taken already. -/
def partsFrom (hits : ι → Text → Option Hit) (rules : List ι) :
    (skip : Nat) → Text → List (Part ι)
  | _, [] => []
  | skip + 1, _ :: rest => partsFrom hits rules skip rest
  | 0, c :: rest =>
    match first? hits rules (c :: rest) with
    | none => .kept c :: partsFrom hits rules 0 rest
    | some (r, h) => .changed r h :: partsFrom hits rules (h.taken.length - 1) rest

/-- The parts of a text in a pass. -/
def parts (hits : ι → Text → Option Hit) (rules : List ι) (t : Text) : List (Part ι) :=
  partsFrom hits rules 0 t

/-- A text after a pass. -/
def sweep (hits : ι → Text → Option Hit) (rules : List ι) (t : Text) : Text :=
  (parts hits rules t).flatMap Part.output

/-- How often a rule has taken something. -/
def count [DecidableEq ι] (r : ι) (ps : List (Part ι)) : Nat :=
  ps.countP fun
    | .kept _ => false
    | .changed r' _ => r' = r

/-- How often something was taken. -/
def changes (ps : List (Part ι)) : Nat :=
  ps.countP fun
    | .kept _ => false
    | .changed _ _ => true

/-- What some rules take is never empty, does not overlap, and does not depend on what is around it
but for whether a word goes on; what they write begins a word where they took one, and holds nothing
that they would take. -/
structure Orderly (hits : ι → Text → Option Hit) (among : Set ι) : Prop where
  proper : ∀ {r t h}, r ∈ among → hits r t = some h → h.taken ≠ [] ∧ h.taken <+: t
  begins : ∀ {r t h}, r ∈ among → hits r t = some h →
    t.beginsWord = true ∧ h.output.beginsWord = true
  alone : ∀ {r r' t h k}, r ∈ among → r' ∈ among → hits r t = some h → 0 < k →
    k < h.taken.length → hits r' (t.drop k) = none
  nearby : ∀ {r h x y}, r ∈ among → hits r (h.taken ++ x) = some h →
    x.beginsWord = y.beginsWord → hits r (h.taken ++ y) = some h
  barren : ∀ {r r' t h k} (x : Text), r ∈ among → r' ∈ among → hits r t = some h →
    k < h.output.length → hits r' (h.output.drop k ++ x) = none

/-- Nothing that a rule takes goes on into what another has written. -/
def Clear (hits : ι → Text → Option Hit) (r r' : ι) : Prop :=
  ∀ t h u x h', hits r t = some h → u ≠ [] → hits r' (u ++ (h.output ++ x)) = some h' →
    h'.taken.length ≤ u.length

theorem first?_eq_some (found : first? hits rules t = some (r, h)) :
    r ∈ rules ∧ hits r t = some h := by
  obtain ⟨other, member, same⟩ := List.exists_of_findSome?_eq_some found
  obtain ⟨h, takes, same⟩ := Option.map_eq_some_iff.mp same
  cases same
  exact ⟨member, takes⟩

theorem first?_eq_none : first? hits rules t = none ↔ ∀ r ∈ rules, hits r t = none := by
  simp [first?]

theorem first?_append (late : List ι) :
    first? hits (rules ++ late) t = (first? hits rules t).or (first? hits late t) := by
  simp [first?, List.findSome?_append]

theorem first?_singleton : first? hits [r] t = (hits r t).map fun h => (r, h) := by
  cases takes : hits r t <;> simp [first?, takes]

theorem partsFrom_eq_drop (skip : Nat) (t : Text) :
    partsFrom hits rules skip t = parts hits rules (t.drop skip) := by
  induction t generalizing skip with
  | nil => cases skip <;> rfl
  | cons c rest ih =>
    cases skip with
    | zero => rfl
    | succ skip => exact ih skip

theorem parts_kept {c : CodePoint} {rest : Text} (none : first? hits rules (c :: rest) = none) :
    parts hits rules (c :: rest) = .kept c :: parts hits rules rest := by
  rw [parts, partsFrom, none]
  rfl

theorem parts_changed (written : h.taken ≠ [])
    (found : first? hits rules (h.taken ++ x) = some (r, h)) :
    parts hits rules (h.taken ++ x) = .changed r h :: parts hits rules x := by
  obtain ⟨c, rest, cut⟩ := List.exists_cons_of_ne_nil written
  rw [cut, List.cons_append] at found ⊢
  rw [parts, partsFrom, found]
  simp only [partsFrom_eq_drop]
  rw [cut, List.length_cons, Nat.add_sub_cancel, List.drop_left]

theorem sweep_nil : sweep hits rules [] = [] :=
  rfl

theorem sweep_kept {c : CodePoint} {rest : Text} (none : first? hits rules (c :: rest) = none) :
    sweep hits rules (c :: rest) = c :: sweep hits rules rest := by
  rw [sweep, parts_kept none]
  rfl

theorem sweep_changed (written : h.taken ≠ [])
    (found : first? hits rules (h.taken ++ x) = some (r, h)) :
    sweep hits rules (h.taken ++ x) = h.output ++ sweep hits rules x := by
  rw [sweep, parts_changed written found]
  rfl

/-- Where nothing is taken in a stretch of text, all of it is kept. -/
theorem parts_append_of_none {m : Text}
    (none : ∀ k < m.length, first? hits rules (m.drop k ++ x) = none) :
    parts hits rules (m ++ x) = m.map .kept ++ parts hits rules x := by
  induction m with
  | nil => rfl
  | cons c m ih =>
    have here : first? hits rules (c :: (m ++ x)) = .none := none 0 (by simp)
    have there := ih fun k inside => none (k + 1) (by simpa using inside)
    rw [List.cons_append, parts_kept here, there]
    rfl

theorem sweep_append_of_none {m : Text}
    (none : ∀ k < m.length, first? hits rules (m.drop k ++ x) = none) :
    sweep hits rules (m ++ x) = m ++ sweep hits rules x := by
  rw [sweep, parts_append_of_none none, List.flatMap_append, List.flatMap_map]
  congr 1
  exact List.flatMap_singleton' m

theorem count_kept [DecidableEq ι] (r : ι) (c : CodePoint) (ps : List (Part ι)) :
    count r (.kept c :: ps) = count r ps := by
  simp [count]

theorem count_changed [DecidableEq ι] (r r' : ι) (h : Hit) (ps : List (Part ι)) :
    count r (.changed r' h :: ps) = count r ps + if r' = r then 1 else 0 := by
  simp [count, List.countP_cons]

theorem count_append_kept [DecidableEq ι] (r : ι) (m : Text) (ps : List (Part ι)) :
    count r (m.map .kept ++ ps) = count r ps := by
  induction m with
  | nil => rfl
  | cons c m ih => rw [List.map_cons, List.cons_append, count_kept, ih]

theorem changes_kept (c : CodePoint) (ps : List (Part ι)) :
    changes (.kept c :: ps) = changes ps := by
  simp [changes]

theorem changes_changed (r : ι) (h : Hit) (ps : List (Part ι)) :
    changes (.changed r h :: ps) = changes ps + 1 := by
  simp [changes]

/-- A pass is told by what is taken first at each place. -/
theorem parts_congr {rules' : List ι} (same : ∀ x, first? hits rules x = first? hits rules' x)
    (t : Text) : parts hits rules t = parts hits rules' t := by
  have each : ∀ skip, partsFrom hits rules skip t = partsFrom hits rules' skip t := by
    induction t with
    | nil => intro skip; cases skip <;> rfl
    | cons c rest ih =>
      intro skip
      cases skip with
      | succ skip => exact ih skip
      | zero =>
        rw [partsFrom, partsFrom, same]
        split
        · rw [ih]
        · rw [ih]
  exact each 0

/-- What a pass has taken was found at some place. -/
theorem exists_of_changed_mem (member : .changed r h ∈ parts hits rules t) :
    ∃ x, x <:+ t ∧ first? hits rules x = some (r, h) := by
  have each : ∀ skip, .changed r h ∈ partsFrom hits rules skip t →
      ∃ x, x <:+ t ∧ first? hits rules x = some (r, h) := by
    clear member
    induction t with
    | nil => intro skip member; cases skip <;> cases member
    | cons c rest ih =>
      have later : ∀ skip, .changed r h ∈ partsFrom hits rules skip rest →
          ∃ x, x <:+ c :: rest ∧ first? hits rules x = some (r, h) := by
        intro skip member
        obtain ⟨x, inside, found⟩ := ih skip member
        exact ⟨x, inside.trans (List.suffix_cons c rest), found⟩
      intro skip member
      cases skip with
      | succ skip => exact later skip member
      | zero =>
        rw [partsFrom] at member
        split at member
        · rcases List.mem_cons.mp member with same | member
          · cases same
          · exact later 0 member
        · rename_i found
          rcases List.mem_cons.mp member with same | member
          · cases same
            exact ⟨_, List.suffix_refl _, found⟩
          · exact later _ member
  exact each 0 member

/-- A rule that is not found at any place has taken nothing. -/
theorem count_eq_zero_of_never [DecidableEq ι]
    (never : ∀ x, x <:+ t → ∀ h, first? hits rules x ≠ some (r, h)) :
    count r (parts hits rules t) = 0 := by
  rw [count, List.countP_eq_zero]
  intro part member
  cases part with
  | kept c => exact Bool.false_ne_true
  | changed r' h =>
    obtain ⟨x, inside, found⟩ := exists_of_changed_mem member
    have different : r' ≠ r := fun same => never x inside h (same ▸ found)
    simpa using different

/-- A rule that was not tried has taken nothing. -/
theorem count_eq_zero [DecidableEq ι] (absent : r ∉ rules) (t : Text) :
    count r (parts hits rules t) = 0 :=
  count_eq_zero_of_never fun _ _ _ found => absent (first?_eq_some found).1

theorem count_eq_zero_of_free [DecidableEq ι] (free : ∀ x, x <:+ t → hits r x = none) :
    count r (parts hits rules t) = 0 := by
  apply count_eq_zero_of_never
  intro x inside h found
  have takes := (first?_eq_some found).2
  rw [free x inside] at takes
  cases takes

/-- Where no rule takes anything, all of a text is kept. -/
theorem parts_eq_kept (free : ∀ r ∈ rules, ∀ x, x <:+ t → hits r x = none) :
    parts hits rules t = t.map .kept := by
  have kept : parts hits rules (t ++ []) = t.map .kept ++ parts hits rules [] := by
    apply parts_append_of_none
    intro k _
    rw [List.append_nil, first?_eq_none]
    exact fun r tried => free r tried _ (List.drop_suffix k t)
  rw [List.append_nil] at kept
  exact kept.trans (List.append_nil _)

theorem sweep_eq_self (free : ∀ r ∈ rules, ∀ x, x <:+ t → hits r x = none) :
    sweep hits rules t = t := by
  rw [sweep, parts_eq_kept free, List.flatMap_map]
  exact List.flatMap_singleton' t

theorem changes_eq_zero (free : ∀ r ∈ rules, ∀ x, x <:+ t → hits r x = none) :
    changes (parts hits rules t) = 0 := by
  rw [parts_eq_kept free, changes, List.countP_map, List.countP_eq_zero]
  intro c _
  exact Bool.false_ne_true

/-- Without a rule, the first of the others that takes something is the same, unless it was that
rule. -/
theorem first?_filter_ne [DecidableEq ι] (other : ∀ h, first? hits rules t ≠ some (r, h)) :
    first? hits (rules.filter (· ≠ r)) t = first? hits rules t := by
  induction rules with
  | nil => rfl
  | cons q rules ih =>
    cases takes : hits q t with
    | some h =>
      have found : first? hits (q :: rules) t = some (q, h) := by simp [first?, takes]
      have different : q ≠ r := fun same => other h (same ▸ found)
      rw [List.filter_cons_of_pos (by simpa using different), found]
      simp [first?, takes]
    | none =>
      have skipped : ∀ rules, first? hits (q :: rules) t = first? hits rules t := by
        intro rules
        simp [first?, takes]
      rw [skipped] at other ⊢
      rw [List.filter_cons]
      split
      · rw [skipped, ih other]
      · exact ih other

/-- A rule that has taken nothing might as well not have been tried. -/
theorem parts_filter_ne [DecidableEq ι] (idle : count r (parts hits rules t) = 0) :
    parts hits (rules.filter (· ≠ r)) t = parts hits rules t := by
  have each : ∀ skip, count r (partsFrom hits rules skip t) = 0 →
      partsFrom hits (rules.filter (· ≠ r)) skip t = partsFrom hits rules skip t := by
    clear idle
    induction t with
    | nil => intro skip _; cases skip <;> rfl
    | cons c rest ih =>
      intro skip idle
      cases skip with
      | succ skip => exact ih skip idle
      | zero =>
        have other : ∀ h, first? hits rules (c :: rest) ≠ some (r, h) := by
          intro h found
          rw [partsFrom, found] at idle
          simp [count_changed] at idle
        rw [partsFrom] at idle ⊢
        rw [partsFrom, first?_filter_ne other]
        split at idle
        · rw [count_kept] at idle
          rw [ih 0 idle]
        · rw [count_changed] at idle
          rw [ih _ (Nat.eq_zero_of_add_eq_zero_right idle)]
  exact each 0 idle

namespace Orderly

/-- Induction over what a pass does from place to place. -/
@[elab_as_elim]
theorem pass_induction (orderly : Orderly hits among) (inside : ∀ r ∈ rules, r ∈ among)
    {motive : Text → Prop} (nil : motive [])
    (kept : ∀ c rest, first? hits rules (c :: rest) = none → motive rest → motive (c :: rest))
    (changed : ∀ r h x, h.taken ≠ [] → first? hits rules (h.taken ++ x) = some (r, h) →
      motive x → motive (h.taken ++ x))
    (t : Text) : motive t := by
  induction size : t.length using Nat.strongRecOn generalizing t with
  | ind size ih =>
    subst size
    cases t with
    | nil => exact nil
    | cons c rest =>
      cases found : first? hits rules (c :: rest) with
      | none => exact kept c rest found (ih rest.length (by simp) rest rfl)
      | some pair =>
        obtain ⟨r, h⟩ := pair
        obtain ⟨tried, takes⟩ := first?_eq_some found
        obtain ⟨written, x, cut⟩ := orderly.proper (inside r tried) takes
        have shorter : x.length < (c :: rest).length := by
          rw [← cut, List.length_append]
          exact Nat.lt_add_of_pos_left (List.length_pos_of_ne_nil written)
        rw [← cut] at found ⊢
        exact changed r h x written found (ih x.length shorter x rfl)

/-- Passes leave it as it is whether a text begins with a word character. -/
theorem beginsWord_sweep (orderly : Orderly hits among) (inside : ∀ r ∈ rules, r ∈ among)
    (t : Text) : (sweep hits rules t).beginsWord = t.beginsWord := by
  cases t with
  | nil => rfl
  | cons c rest =>
    cases found : first? hits rules (c :: rest) with
    | none =>
      rw [sweep_kept found]
      rfl
    | some pair =>
      obtain ⟨r, h⟩ := pair
      obtain ⟨member, takes⟩ := first?_eq_some found
      obtain ⟨written, x, cut⟩ := orderly.proper (inside r member) takes
      obtain ⟨before, after⟩ := orderly.begins (inside r member) takes
      rw [← cut] at found
      rw [before, ← cut, sweep_changed written found]
      obtain ⟨d, output, begins⟩ : ∃ d output, h.output = d :: output := by
        apply List.exists_cons_of_ne_nil
        intro nothing
        rw [nothing] at after
        cases after
      rw [begins] at after ⊢
      exact after

/-- What a rule takes is left alone by a pass in which nothing is taken at its start. -/
theorem first?_taken (orderly : Orderly hits among) (inside : ∀ r ∈ rules, r ∈ among)
    (member : r ∈ among) (takes : hits r (h.taken ++ x) = some h)
    (free : first? hits rules (h.taken ++ x) = none) :
    ∀ k < h.taken.length, first? hits rules (h.taken.drop k ++ x) = none := by
  intro k within
  by_cases start : k = 0
  · rwa [start]
  · rw [first?_eq_none]
    intro other tried
    have alone := orderly.alone member (inside other tried) takes (Nat.pos_of_ne_zero start) within
    rwa [List.drop_append_of_le_length (Nat.le_of_lt within)] at alone

/-- A pass keeps a stretch of text up to the first place where something is taken. -/
theorem exists_stretch (hits : ι → Text → Option Hit) (rules : List ι) (t : Text) :
    ∃ u x, t = u ++ x ∧ sweep hits rules t = u ++ sweep hits rules x ∧
      (x = [] ∨ ∃ r h, first? hits rules x = some (r, h)) := by
  induction t with
  | nil => exact ⟨[], [], rfl, rfl, .inl rfl⟩
  | cons c rest ih =>
    cases found : first? hits rules (c :: rest) with
    | some pair => exact ⟨[], c :: rest, rfl, rfl, .inr ⟨pair.1, pair.2, found⟩⟩
    | none =>
      obtain ⟨u, x, rfl, kept, next⟩ := ih
      refine ⟨c :: u, x, rfl, ?_, next⟩
      rw [sweep_kept found, kept]
      rfl

/-- A pass does not make a rule take something at the start of a text. -/
theorem hits_sweep_eq_none (orderly : Orderly hits among) (inside : ∀ r ∈ rules, r ∈ among)
    (member : r ∈ among) (clear : ∀ r' ∈ rules, Clear hits r' r) {c : CodePoint} {rest : Text}
    (free : first? hits rules (c :: rest) = none) (misses : hits r (c :: rest) = none) :
    hits r (sweep hits rules (c :: rest)) = none := by
  by_contra some
  obtain ⟨h, takes⟩ := Option.ne_none_iff_exists'.mp some
  obtain ⟨written, y, cut⟩ := orderly.proper member takes
  obtain ⟨u, x, rfl, kept, next⟩ := exists_stretch hits rules rest
  rw [sweep_kept free, kept, ← List.cons_append] at takes cut
  rw [← List.cons_append] at misses
  have begins := orderly.beginsWord_sweep inside x
  -- What is taken ends in what was kept, so that it could have been taken before.
  have short : h.taken.length ≤ (c :: u).length := by
    rcases next with rfl | ⟨r', h', found⟩
    · have whole := congrArg List.length cut
      rw [sweep_nil, List.append_nil, List.length_append] at whole
      omega
    · obtain ⟨tried, takes'⟩ := first?_eq_some found
      obtain ⟨written', z, rfl⟩ := orderly.proper (inside r' tried) takes'
      rw [sweep_changed written' found] at takes
      exact clear r' tried _ h' (c :: u) _ h takes' (by simp) takes
  obtain ⟨v, kept⟩ : ∃ v, c :: u = h.taken ++ v :=
    (List.prefix_of_prefix_length_le ⟨y, cut⟩ (List.prefix_append _ _) short).imp
      fun _ same => same.symm
  rw [kept, List.append_assoc] at takes misses
  have onward := orderly.nearby (y := v ++ x) member takes (by
    cases v with
    | nil => exact begins
    | cons => rfl)
  rw [misses] at onward
  cases onward

theorem first?_append_singleton_of_none (free : first? hits rules t = none) :
    first? hits (rules ++ [r]) t = (hits r t).map fun h => (r, h) := by
  rw [first?_append, free, first?_singleton]
  rfl

theorem first?_append_of_some {pair : ι × Hit} (found : first? hits rules t = some pair)
    (late : List ι) : first? hits (rules ++ late) t = some pair := by
  rw [first?_append, found]
  rfl

/-- One more pass for one more rule comes to the same as a single pass with that rule as well. -/
theorem twofold [DecidableEq ι] (orderly : Orderly hits among) (inside : ∀ r ∈ rules, r ∈ among)
    (member : r ∈ among) (clear : ∀ r' ∈ rules, Clear hits r' r) (t : Text) :
    sweep hits [r] (sweep hits rules t) = sweep hits (rules ++ [r]) t ∧
    ∀ r', count r' (parts hits rules t) + count r' (parts hits [r] (sweep hits rules t)) =
      count r' (parts hits (rules ++ [r]) t) := by
  have insideBoth : ∀ r' ∈ rules ++ [r], r' ∈ among := by
    intro r' tried
    rcases List.mem_append.mp tried with before | last
    · exact inside r' before
    · rwa [List.mem_singleton.mp last]
  induction t using orderly.pass_induction insideBoth with
  | nil => exact ⟨rfl, fun _ => rfl⟩
  | kept c rest both ih =>
    -- Nothing is taken here in any pass.
    rw [first?_append, Option.or_eq_none_iff, first?_singleton, Option.map_eq_none_iff] at both
    obtain ⟨found, misses⟩ := both
    have idle : first? hits [r] (c :: sweep hits rules rest) = none := by
      rw [first?_singleton, ← sweep_kept found,
        orderly.hits_sweep_eq_none inside member clear found misses]
      rfl
    have both : first? hits (rules ++ [r]) (c :: rest) = none := by
      rw [first?_append_singleton_of_none found, misses]
      rfl
    obtain ⟨text, counts⟩ := ih
    rw [sweep_kept found, sweep_kept idle, sweep_kept both, parts_kept found, parts_kept idle,
      parts_kept both, text]
    refine ⟨rfl, fun r'' => ?_⟩
    rw [count_kept, count_kept, count_kept, counts]
  | changed r' h x written both ih =>
    obtain ⟨text, counts⟩ := ih
    cases found : first? hits rules (h.taken ++ x) with
    | some pair =>
      -- A rule of the first pass takes something here, and the second pass leaves it alone.
      cases both.symm.trans (first?_append_of_some found [r])
      obtain ⟨tried, takes⟩ := first?_eq_some found
      have idle : ∀ k < h.output.length,
          first? hits [r] (h.output.drop k ++ sweep hits rules x) = none := by
        intro k within
        rw [first?_singleton, orderly.barren _ (inside r' tried) member takes within]
        rfl
      rw [sweep_changed written found, sweep_append_of_none idle, parts_append_of_none idle,
        sweep_changed written both, parts_changed written found, parts_changed written both, text]
      refine ⟨rfl, fun r'' => ?_⟩
      rw [count_append_kept, count_changed, count_changed, ← counts]
      omega
    | none =>
      -- Only the new rule takes something here, and the first pass has left it alone.
      obtain ⟨_, takes, same⟩ :=
        Option.map_eq_some_iff.mp ((first?_append_singleton_of_none found).symm.trans both)
      cases same
      have again : first? hits [r] (h.taken ++ sweep hits rules x) = some (r, h) := by
        rw [first?_singleton, orderly.nearby member takes
          (orderly.beginsWord_sweep inside x).symm]
        rfl
      have idle := orderly.first?_taken inside member takes found
      rw [sweep_append_of_none idle, sweep_changed written again, sweep_changed written both,
        parts_append_of_none idle, parts_changed written again, parts_changed written both,
        text]
      refine ⟨rfl, fun r'' => ?_⟩
      rw [count_append_kept, count_changed, count_changed, ← counts, Nat.add_assoc]

/-- A rule that takes something at a place, and no other does, has done so in a pass. -/
theorem count_pos [DecidableEq ι] (orderly : Orderly hits among)
    (inside : ∀ r ∈ rules, r ∈ among) (tried : r ∈ rules) (takes : hits r x = some h)
    (sole : ∀ r' ∈ rules, hits r' x ≠ none → r' = r) (u : Text) :
    0 < count r (parts hits rules (u ++ x)) := by
  induction size : u.length using Nat.strongRecOn generalizing u with
  | ind size ih =>
    subst size
    cases u with
    | nil =>
      rw [List.nil_append]
      cases found : first? hits rules x with
      | none =>
        rw [first?_eq_none.mp found r tried] at takes
        cases takes
      | some pair =>
        obtain ⟨r', h'⟩ := pair
        obtain ⟨tried', takes'⟩ := first?_eq_some found
        obtain ⟨written, rest, cut⟩ := orderly.proper (inside r' tried') takes'
        have same : r' = r := sole r' tried' (by simp [takes'])
        rw [← cut] at found ⊢
        rw [parts_changed written found, count_changed, if_pos same]
        omega
    | cons c u =>
      cases found : first? hits rules (c :: u ++ x) with
      | none =>
        rw [List.cons_append] at found ⊢
        rw [parts_kept found, count_kept]
        exact ih u.length (by simp) u rfl
      | some pair =>
        obtain ⟨r', h'⟩ := pair
        obtain ⟨tried', takes'⟩ := first?_eq_some found
        obtain ⟨written, rest, cut⟩ := orderly.proper (inside r' tried') takes'
        -- Nothing is taken across the place, so the pass comes by it.
        have before : h'.taken.length ≤ (c :: u).length := by
          by_contra across
          have alone := orderly.alone (inside r' tried') (inside r tried) takes'
            (List.length_pos_of_ne_nil (List.cons_ne_nil c u)) (Nat.lt_of_not_le across)
          rw [List.drop_left, takes] at alone
          cases alone
        obtain ⟨v, kept⟩ : ∃ v, h'.taken ++ v = c :: u :=
          List.prefix_of_prefix_length_le ⟨rest, cut⟩ (List.prefix_append _ _) before
        have shorter : v.length < (c :: u).length := by
          rw [← kept, List.length_append]
          have := List.length_pos_of_ne_nil written
          omega
        rw [← kept, List.append_assoc] at found ⊢
        rw [parts_changed written found, count_changed]
        have later := ih v.length shorter v rfl
        omega

theorem parts_append_of_mem (tried : r ∈ rules) (t : Text) :
    parts hits (rules ++ [r]) t = parts hits rules t := by
  apply parts_congr
  intro x
  cases found : first? hits rules x with
  | some pair => exact first?_append_of_some found [r]
  | none =>
    rw [first?_append_singleton_of_none found, first?_eq_none.mp found r tried]
    rfl

/-- After a pass a rule of it takes nothing any more. -/
theorem settled [DecidableEq ι] (orderly : Orderly hits among) (inside : ∀ r ∈ rules, r ∈ among)
    (tried : r ∈ rules) (clear : ∀ r' ∈ rules, Clear hits r' r) {u : Text}
    (cut : sweep hits rules t = u ++ x) : hits r x = none := by
  by_contra some
  obtain ⟨h, takes⟩ := Option.ne_none_iff_exists'.mp some
  have again : 0 < count r (parts hits [r] (u ++ x)) := by
    apply orderly.count_pos (fun other member => ?_) List.mem_cons_self takes
    · exact fun other member _ => List.mem_singleton.mp member
    · rw [List.mem_singleton.mp member]
      exact inside r tried
  have counts := (orderly.twofold inside (inside r tried) clear t).2 r
  rw [parts_append_of_mem tried, cut] at counts
  omega

/-- The same if the only rule that could write something for it has taken nothing. -/
theorem settled_of_idle [DecidableEq ι] (orderly : Orderly hits among)
    (inside : ∀ r ∈ rules, r ∈ among) (tried : r ∈ rules) (different : r ≠ r')
    (idle : count r' (parts hits rules t) = 0)
    (clear : ∀ q ∈ rules, q ≠ r' → Clear hits q r) {u : Text}
    (cut : sweep hits rules t = u ++ x) : hits r x = none := by
  have without : sweep hits (rules.filter (· ≠ r')) t = u ++ x := by
    rw [sweep, parts_filter_ne idle]
    exact cut
  refine orderly.settled (fun q member => inside q (List.mem_of_mem_filter member)) ?_ ?_ without
  · exact List.mem_filter.mpr ⟨tried, by simpa using different⟩
  · intro q member
    obtain ⟨tried, other⟩ := List.mem_filter.mp member
    exact clear q tried (by simpa using other)

end Orderly

end Sweep

end Renewal
