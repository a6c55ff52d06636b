import Mathlib.Order.Filter.AtTopBot.Basic
import Renewal.Proofs.Route

/-! # Resolution without a limit on links

Where a path leads is limited by how many links are followed. If the limit is high enough it makes
no difference any more: a route is followed to its end (`Route.eventually`), and only a name that is
too long can still be in the way (`Overlong.eventually`). What else does not lead anywhere, such as
links that lead to each other, counts as absent under every limit (`error_of_followLinks`).
-/

namespace Renewal.Tree

open Filter FileSystem

variable {t : Tree} {longest links : Nat} {followLast : Bool} {here middle goal : Location}
  {name : EntryName} {names rest front back : List EntryName} {target : Bytes}

/-- Names lead, every link on the way followed, to a directory where the next name is too long. -/
inductive Overlong (t : Tree) (longest : Nat) : Location → List EntryName → Prop
  | here {here : Location} {name : EntryName} {rest : List EntryName}
      (directory : t.get? here = some .directory) (long : longest < name.length) :
      Overlong t longest here (name :: rest)
  | dot {here : Location} {rest : List EntryName} (directory : t.get? here = some .directory)
      (onward : Overlong t longest here rest) : Overlong t longest here (Tree.dot :: rest)
  | up {here : Location} {rest : List EntryName} (directory : t.get? here = some .directory)
      (onward : Overlong t longest here.dropLast rest) : Overlong t longest here (dotDot :: rest)
  | link {here : Location} {name : EntryName} {rest : List EntryName} {target : Bytes}
      (directory : t.get? here = some .directory) (proper : IsProper name)
      (entry : t.get? (here ++ [name]) = some (.link target))
      (onward : Overlong t longest (pathStart here target) (pathNames target ++ rest)) :
      Overlong t longest here (name :: rest)
  | enter {here : Location} {name : EntryName} {rest : List EntryName}
      (directory : t.get? here = some .directory) (proper : IsProper name)
      (plain : ∀ target, t.get? (here ++ [name]) ≠ some (.link target))
      (onward : Overlong t longest (here ++ [name]) rest) : Overlong t longest here (name :: rest)

/-- What holds from some number of links on holds from the next on for one more. -/
theorem eventually_of_succ {holds : Nat → Prop} (later : ∀ᶠ links in atTop, holds (links + 1)) :
    ∀ᶠ links in atTop, holds links := by
  rw [← map_add_atTop_eq_nat 1]
  exact later

namespace Overlong

theorem directory (overlong : Overlong t longest here names) : t.get? here = some .directory := by
  cases overlong <;> assumption

/-- If enough links are followed, one comes to the name that is too long. -/
theorem eventually (overlong : Overlong t longest here names) : ∀ᶠ links in atTop,
    t.followLinks longest true links here names = .error .nameTooLong := by
  induction overlong with
  | here directory long => exact .of_forall fun links => followLinks_long directory long
  | dot directory _ ih =>
    refine ih.mono fun links stuck => ?_
    by_cases long : longest < Tree.dot.length
    · exact followLinks_long directory long
    · rw [followLinks_dot directory (not_lt.mp long), stuck]
  | up directory _ ih =>
    refine ih.mono fun links stuck => ?_
    by_cases long : longest < dotDot.length
    · exact followLinks_long directory long
    · rw [followLinks_dotDot directory (not_lt.mp long), stuck]
  | @link here name rest target directory proper entry _ ih =>
    refine eventually_of_succ (ih.mono fun links stuck => ?_)
    by_cases long : longest < name.length
    · exact followLinks_long directory long
    · rw [followLinks_link directory (not_lt.mp long) proper entry (.inl rfl), stuck]
  | @enter here name rest directory proper plain onward ih =>
    refine ih.mono fun links stuck => ?_
    by_cases long : longest < name.length
    · exact followLinks_long directory long
    · rw [followLinks_enter directory (not_lt.mp long) proper onward.directory, stuck]

end Overlong

/-- If enough links are followed, a route without too long names leads to its end. -/
theorem Route.eventually (route : Route t here names goal)
    (short : ¬Overlong t longest here names) : ∀ᶠ links in atTop,
    t.followLinks longest true links here names = .ok ⟨goal, t.get? goal⟩ := by
  induction route with
  | stop here => exact .of_forall fun links => followLinks_nil
  | dot directory _ ih =>
    have fits : Tree.dot.length ≤ longest := not_lt.mp fun long => short (.here directory long)
    refine (ih fun overlong => short (.dot directory overlong)).mono fun links leads => ?_
    rw [followLinks_dot directory fits, leads]
  | up directory _ ih =>
    have fits : dotDot.length ≤ longest := not_lt.mp fun long => short (.here directory long)
    refine (ih fun overlong => short (.up directory overlong)).mono fun links leads => ?_
    rw [followLinks_dotDot directory fits, leads]
  | @link here goal name rest target directory proper entry _ ih =>
    have fits : name.length ≤ longest := not_lt.mp fun long => short (.here directory long)
    have later := ih fun overlong => short (.link directory proper entry overlong)
    refine eventually_of_succ (later.mono fun links leads => ?_)
    rw [followLinks_link directory fits proper entry (.inl rfl), leads]
  | @enter here goal name rest directory proper plain onward ih =>
    have fits : name.length ≤ longest := not_lt.mp fun long => short (.here directory long)
    cases rest with
    | nil =>
      cases onward
      exact .of_forall fun links => followLinks_last directory fits proper plain
    | cons next rest =>
      have later := ih fun overlong => short (.enter directory proper plain overlong)
      refine later.mono fun links leads => ?_
      rw [followLinks_enter directory fits proper onward.directory_of_cons, leads]

private theorem error_of_followNames
    {expand : Location → List EntryName → Except Errno Found} {errno : Errno}
    (expands : ∀ l rest, expand l rest = .error errno →
      meansAbsent errno = true ∨ errno = .nameTooLong ∧ Overlong t longest l rest) :
    ∀ names here, t.followNames longest true expand here names = .error errno →
      meansAbsent errno = true ∨ errno = .nameTooLong ∧ Overlong t longest here names := by
  intro names
  induction names with
  | nil =>
    intro here stuck
    cases stuck
  | cons name rest ih =>
    intro here stuck
    by_cases directory : t.get? here = some .directory
    · by_cases long : longest < name.length
      · rw [followNames_long directory long] at stuck
        cases stuck
        exact .inr ⟨rfl, .here directory long⟩
      have fits := not_lt.mp long
      by_cases isDot : name = dot
      · subst isDot
        rw [followNames_dot directory fits] at stuck
        exact (ih here stuck).imp_right fun overlong => ⟨overlong.1, .dot directory overlong.2⟩
      by_cases isDotDot : name = dotDot
      · subst isDotDot
        rw [followNames_dotDot directory fits] at stuck
        exact (ih _ stuck).imp_right fun overlong => ⟨overlong.1, .up directory overlong.2⟩
      have proper : IsProper name := ⟨isDot, isDotDot⟩
      rw [followNames_proper directory fits proper] at stuck
      cases entry : t.get? (here ++ [name]) with
      | none =>
        rw [entry] at stuck
        by_cases ended : rest = []
        · simp [ended] at stuck
        · simp only [List.isEmpty_eq_false_iff.mpr ended, Bool.false_eq_true, ↓reduceIte] at stuck
          cases stuck
          exact .inl rfl
      | some e =>
        rw [entry] at stuck
        cases e with
        | link target =>
          simp only [Bool.not_true, Bool.and_false, Bool.false_eq_true, ↓reduceIte] at stuck
          exact (expands _ _ stuck).imp_right fun overlong =>
            ⟨overlong.1, .link directory proper entry overlong.2⟩
        | directory | pipe =>
          exact (ih _ stuck).imp_right fun overlong =>
            ⟨overlong.1, .enter directory proper (by simp [entry]) overlong.2⟩
        | file data mode =>
          exact (ih _ stuck).imp_right fun overlong =>
            ⟨overlong.1, .enter directory proper (by simp [entry]) overlong.2⟩
    · rw [followNames_outside directory] at stuck
      cases stuck
      exact .inl rfl

/-- Names that lead nowhere lead to something absent, unless one of them is too long. -/
theorem error_of_followLinks {errno : Errno}
    (stuck : t.followLinks longest true links here names = .error errno) :
    meansAbsent errno = true ∨ errno = .nameTooLong ∧ Overlong t longest here names := by
  induction links generalizing here names with
  | zero =>
    refine error_of_followNames ?_ names here stuck
    intro _ _ none
    cases none
    exact .inl rfl
  | succ links ih => exact error_of_followNames (fun _ _ onward => ih onward) names here stuck

/-- Routes can be put together. -/
theorem Route.append (first : Route t here front middle) (second : Route t middle back goal) :
    Route t here (front ++ back) goal := by
  induction first with
  | stop here => exact second
  | dot directory _ ih => exact .dot directory (ih second)
  | up directory _ ih => exact .up directory (ih second)
  | link directory proper entry _ ih =>
    refine .link directory proper entry ?_
    have onward := ih second
    rwa [List.append_assoc] at onward
  | enter directory proper plain _ ih => exact .enter directory proper plain (ih second)

section Inversion

theorem overlong_dot (directory : t.get? here = some .directory) :
    Overlong t longest here (dot :: rest) ↔
      longest < dot.length ∨ Overlong t longest here rest := by
  constructor
  · intro overlong
    cases overlong with
    | here _ long => exact .inl long
    | dot _ onward => exact .inr onward
    | link _ proper | enter _ proper => exact absurd rfl proper.1
  · exact fun overlong => overlong.elim (.here directory) (.dot directory)

theorem overlong_dotDot (directory : t.get? here = some .directory) :
    Overlong t longest here (dotDot :: rest) ↔
      longest < dotDot.length ∨ Overlong t longest here.dropLast rest := by
  constructor
  · intro overlong
    cases overlong with
    | here _ long => exact .inl long
    | up _ onward => exact .inr onward
    | link _ proper | enter _ proper => exact absurd rfl proper.2
  · exact fun overlong => overlong.elim (.here directory) (.up directory)

theorem overlong_link (directory : t.get? here = some .directory) (proper : IsProper name)
    (entry : t.get? (here ++ [name]) = some (.link target)) :
    Overlong t longest here (name :: rest) ↔
      longest < name.length ∨
        Overlong t longest (pathStart here target) (pathNames target ++ rest) := by
  constructor
  · intro overlong
    cases overlong with
    | here _ long => exact .inl long
    | dot => exact absurd rfl proper.1
    | up => exact absurd rfl proper.2
    | link _ _ entry' onward =>
      cases entry.symm.trans entry'
      exact .inr onward
    | enter _ _ plain => exact absurd entry (plain _)
  · exact fun overlong => overlong.elim (.here directory) (.link directory proper entry)

theorem overlong_enter (directory : t.get? here = some .directory) (proper : IsProper name)
    (plain : ∀ target, t.get? (here ++ [name]) ≠ some (.link target)) :
    Overlong t longest here (name :: rest) ↔
      longest < name.length ∨ Overlong t longest (here ++ [name]) rest := by
  constructor
  · intro overlong
    cases overlong with
    | here _ long => exact .inl long
    | dot => exact absurd rfl proper.1
    | up => exact absurd rfl proper.2
    | link _ _ entry => exact absurd entry (plain _)
    | enter _ _ _ onward => exact .inr onward
  · exact fun overlong => overlong.elim (.here directory) (.enter directory proper plain)

end Inversion

/-- After a route, a name that is too long is met on it or beyond it. -/
theorem Route.overlong_append (route : Route t here front middle) :
    Overlong t longest here (front ++ back) ↔
      Overlong t longest here front ∨ Overlong t longest middle back := by
  induction route with
  | stop here =>
    refine ⟨.inr, fun overlong => overlong.resolve_left fun none => ?_⟩
    cases none
  | dot directory _ ih =>
    rw [List.cons_append, overlong_dot directory, overlong_dot directory, ih, or_assoc]
  | up directory _ ih =>
    rw [List.cons_append, overlong_dotDot directory, overlong_dotDot directory, ih, or_assoc]
  | link directory proper entry _ ih =>
    rw [List.append_assoc] at ih
    rw [List.cons_append, overlong_link directory proper entry,
      overlong_link directory proper entry, ih, or_assoc]
  | enter directory proper plain _ ih =>
    rw [List.cons_append, overlong_enter directory proper plain,
      overlong_enter directory proper plain, ih, or_assoc]

/-- The names in a tree, and the two that stand for directories, are no longer than allowed. -/
structure Fits (t : Tree) (longest : Nat) : Prop where
  dots : dotDot.length ≤ longest
  names : ∀ place name, (t.get? (place ++ [name])).isSome → name.length ≤ longest

/-- On the way to something that is there, all names are names in the tree. -/
theorem Route.not_overlong (fits : t.Fits longest) (route : Route t here names goal)
    (present : (t.get? goal).isSome) : ¬Overlong t longest here names := by
  induction route with
  | stop here =>
    intro overlong
    cases overlong
  | dot directory _ ih =>
    rw [overlong_dot directory]
    exact not_or.mpr ⟨not_lt.mpr (le_trans (by decide) fits.dots), ih present⟩
  | up directory _ ih =>
    rw [overlong_dotDot directory]
    exact not_or.mpr ⟨not_lt.mpr fits.dots, ih present⟩
  | link directory proper entry _ ih =>
    rw [overlong_link directory proper entry]
    exact not_or.mpr ⟨not_lt.mpr (fits.names _ _ (by rw [entry]; rfl)), ih present⟩
  | @enter here goal name rest directory proper plain onward ih =>
    rw [overlong_enter directory proper plain]
    refine not_or.mpr ⟨not_lt.mpr (fits.names here name ?_), ih present⟩
    cases rest with
    | nil =>
      cases onward
      exact present
    | cons next rest => simp [onward.directory_of_cons]

/-- No name is too long on the way if none is in the names themselves and in the targets of links.
-/
theorem not_overlong_of_targets
    (targets : ∀ place target, t.get? place = some (.link target) →
      ∀ name ∈ pathNames target, name.length ≤ longest)
    (short : ∀ name ∈ names, name.length ≤ longest) : ¬Overlong t longest here names := by
  intro overlong
  induction overlong with
  | here _ long => exact absurd (short _ List.mem_cons_self) (not_le.mpr long)
  | dot _ _ ih | up _ _ ih | enter _ _ _ _ ih =>
    exact ih fun name member => short name (List.mem_cons_of_mem _ member)
  | link _ _ entry _ ih =>
    refine ih fun name member => ?_
    exact (List.mem_append.mp member).elim (targets _ _ entry name) fun later =>
      short name (List.mem_cons_of_mem _ later)

theorem route_append_iff : Route t here (front ++ back) goal ↔
    ∃ middle, Route t here front middle ∧ Route t middle back goal :=
  ⟨Route.cut, fun ⟨_, first, second⟩ => first.append second⟩

/-- Dots make no difference on the way to a directory. -/
theorem route_without_dots_iff (directory : t.get? goal = some .directory) :
    Route t here (names.filter (· != dot)) goal ↔ Route t here names goal := by
  induction names generalizing here with
  | nil => rfl
  | cons name rest ih =>
    by_cases isDot : name = dot
    · subst isDot
      rw [List.filter_cons_of_neg (by simp), ih]
      refine ⟨fun route => .dot ?_ route, fun route => ?_⟩
      · cases rest with
        | nil =>
          cases route
          exact directory
        | cons next rest => exact route.directory_of_cons
      · cases route with
        | dot _ onward => exact onward
        | link _ proper | enter _ proper => exact absurd rfl proper.1
    · rw [List.filter_cons_of_pos (by simpa using isDot), ← List.singleton_append,
        ← List.singleton_append (l := rest), route_append_iff, route_append_iff]
      simp only [ih]

/-- Enough links are followed for some names: they lead where their route ends, or one comes to a
name that is too long. -/
structure Settled (t : Tree) (longest links : Nat) (here : Location) (names : List EntryName) :
    Prop where
  leads : ∀ goal, Route t here names goal → (t.get? goal).isSome →
    t.followLinks longest true links here names = .ok ⟨goal, t.get? goal⟩
  stumbles : Overlong t longest here names →
    t.followLinks longest true links here names = .error .nameTooLong

theorem eventually_settled (fits : t.Fits longest) (here : Location) (names : List EntryName) :
    ∀ᶠ links in atTop, Settled t longest links here names := by
  by_cases overlong : Overlong t longest here names
  · refine overlong.eventually.mono fun links stuck =>
      ⟨fun goal route present => ?_, fun _ => stuck⟩
    exact absurd overlong (route.not_overlong fits present)
  · by_cases routed : ∃ goal, Route t here names goal
    · obtain ⟨goal, route⟩ := routed
      refine (route.eventually overlong).mono fun links leads => ⟨fun goal' route' _ => ?_, ?_⟩
      · cases route.unique route'
        exact leads
      · exact fun overlong' => absurd overlong' overlong
    · exact .of_forall fun links => ⟨fun goal route => absurd ⟨goal, route⟩ routed,
        fun overlong' => absurd overlong' overlong⟩

end Renewal.Tree
