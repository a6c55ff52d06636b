import Renewal.Proofs.Resolution

/-! # Routes

A route is the way that names lead through a tree when every link on it is followed, however many
there are. Routes are unique and can be cut at any name. So a link that leads to a file is on no
route that goes on to a directory, and replacing such a link leaves those routes as they are.
-/

namespace Renewal.Tree

variable {t u : Tree} {longest links : Nat} {here place goal : Location}
  {names : List EntryName} {found : Found}

/-- Names lead from a place to another, every link on the way followed. -/
inductive Route (t : Tree) : Location → List EntryName → Location → Prop
  | stop (here : Location) : Route t here [] here
  | dot {here goal : Location} {rest : List EntryName} (directory : t.get? here = some .directory)
      (onward : Route t here rest goal) : Route t here (Tree.dot :: rest) goal
  | up {here goal : Location} {rest : List EntryName} (directory : t.get? here = some .directory)
      (onward : Route t here.dropLast rest goal) : Route t here (dotDot :: rest) goal
  | link {here goal : Location} {name : EntryName} {rest : List EntryName} {target : Bytes}
      (directory : t.get? here = some .directory) (proper : IsProper name)
      (entry : t.get? (here ++ [name]) = some (.link target))
      (onward : Route t (pathStart here target) (pathNames target ++ rest) goal) :
      Route t here (name :: rest) goal
  | enter {here goal : Location} {name : EntryName} {rest : List EntryName}
      (directory : t.get? here = some .directory) (proper : IsProper name)
      (plain : ∀ target, t.get? (here ++ [name]) ≠ some (.link target))
      (onward : Route t (here ++ [name]) rest goal) : Route t here (name :: rest) goal

namespace Route

theorem directory_of_cons {name : EntryName} (route : Route t here (name :: names) goal) :
    t.get? here = some .directory := by
  cases route <;> assumption

/-- A route can be cut at any name. -/
theorem cut {front back : List EntryName} (route : Route t here (front ++ back) goal) :
    ∃ middle, Route t here front middle ∧ Route t middle back goal := by
  generalize whole : front ++ back = names at route
  induction route generalizing front with
  | stop here =>
    obtain ⟨rfl, rfl⟩ := List.append_eq_nil_iff.mp whole
    exact ⟨here, .stop here, .stop here⟩
  | dot directory onward ih =>
    cases front with
    | nil =>
      obtain rfl : back = _ := whole
      exact ⟨_, .stop _, .dot directory onward⟩
    | cons name rest =>
      obtain ⟨rfl, rfl⟩ := List.cons.inj whole
      obtain ⟨middle, first, second⟩ := ih rfl
      exact ⟨middle, .dot directory first, second⟩
  | up directory onward ih =>
    cases front with
    | nil =>
      obtain rfl : back = _ := whole
      exact ⟨_, .stop _, .up directory onward⟩
    | cons name rest =>
      obtain ⟨rfl, rfl⟩ := List.cons.inj whole
      obtain ⟨middle, first, second⟩ := ih rfl
      exact ⟨middle, .up directory first, second⟩
  | link directory proper entry onward ih =>
    cases front with
    | nil =>
      obtain rfl : back = _ := whole
      exact ⟨_, .stop _, .link directory proper entry onward⟩
    | cons name rest =>
      obtain ⟨rfl, rfl⟩ := List.cons.inj whole
      obtain ⟨middle, first, second⟩ := ih (List.append_assoc _ _ _)
      exact ⟨middle, .link directory proper entry first, second⟩
  | enter directory proper plain onward ih =>
    cases front with
    | nil =>
      obtain rfl : back = _ := whole
      exact ⟨_, .stop _, .enter directory proper plain onward⟩
    | cons name rest =>
      obtain ⟨rfl, rfl⟩ := List.cons.inj whole
      obtain ⟨middle, first, second⟩ := ih rfl
      exact ⟨middle, .enter directory proper plain first, second⟩

/-- Names lead to one place only. -/
theorem unique {goal' : Location} (first : Route t here names goal)
    (second : Route t here names goal') : goal = goal' := by
  induction first with
  | stop here =>
    cases second
    rfl
  | dot directory onward ih =>
    cases second with
    | dot _ onward' => exact ih onward'
    | link _ proper | enter _ proper => exact absurd rfl proper.1
  | up directory onward ih =>
    cases second with
    | up _ onward' => exact ih onward'
    | link _ proper | enter _ proper => exact absurd rfl proper.2
  | link directory proper entry onward ih =>
    cases second with
    | dot => exact absurd rfl proper.1
    | up => exact absurd rfl proper.2
    | link _ _ entry' onward' =>
      rw [entry] at entry'
      cases entry'
      exact ih onward'
    | enter _ _ plain' => exact absurd entry (plain' _)
  | enter directory proper plain onward ih =>
    cases second with
    | dot => exact absurd rfl proper.1
    | up => exact absurd rfl proper.2
    | link _ _ entry' => exact absurd entry' (plain _)
    | enter _ _ _ onward' => exact ih onward'

end Route

/-- A path that leads somewhere has a route to there. -/
theorem Trail.route (trail : Trail t longest true links here names found) :
    Route t here names found.location := by
  induction trail with
  | nil => exact .stop _
  | dot directory _ _ ih => exact .dot directory ih
  | up directory _ _ ih => exact .up directory ih
  | enter directory _ proper inside _ ih => exact .enter directory proper (by simp [inside]) ih
  | stop directory _ proper plain => exact .enter directory proper plain.notLink (.stop _)
  | hold _ _ _ _ last => cases last
  | link directory _ proper entry _ _ ih => exact .link directory proper entry ih

theorem route_of_followLinks
    (leads : t.followLinks longest true links here names = .ok found) :
    Route t here names found.location :=
  (followLinks_eq_ok_iff.mp leads).route

/-- A link at a place leads on to something that is no directory. -/
def LeadsToEnd (t : Tree) (place : Location) : Prop :=
  ∀ around name target, place = around ++ [name] → t.get? place = some (.link target) →
    ∃ goal, Route t (pathStart around target) (pathNames target) goal ∧
      t.get? goal ≠ some .directory

/-- A link that leads to no directory is on no way to one. -/
theorem LeadsToEnd.elsewhere {name : EntryName} {rest : List EntryName} {target : Bytes}
    (ends : t.LeadsToEnd place) (entry : t.get? (here ++ [name]) = some (.link target))
    (route : Route t (pathStart here target) (pathNames target ++ rest) goal)
    (directory : t.get? goal = some .directory) : here ++ [name] ≠ place := by
  intro same
  obtain ⟨last, toLast, plain⟩ := ends here name target same.symm (same ▸ entry)
  obtain ⟨middle, toMiddle, beyond⟩ := route.cut
  cases toMiddle.unique toLast
  cases rest with
  | nil =>
    cases beyond
    exact plain directory
  | cons _ _ => exact plain beyond.directory_of_cons

/-- Replacing something that leads to no directory leaves the ways to directories as they are. -/
theorem Trail.of_replaced {e : Entry} (trail : Trail t longest true links here names found)
    (ends : t.LeadsToEnd place) (notDirectory : t.get? place ≠ some .directory)
    (changed : u.get? = Function.update t.get? place (some e))
    (directory : t.get? found.location = some .directory) :
    Trail u longest true links here names ⟨found.location, some .directory⟩ := by
  have kept : ∀ l, t.get? l = some .directory → u.get? l = some .directory := by
    intro l directory
    rw [changed, Function.update_of_ne, directory]
    rintro rfl
    exact notDirectory directory
  induction trail with
  | nil =>
    rw [← kept _ directory]
    exact .nil
  | dot here fits _ ih => exact .dot (kept _ here) fits (ih directory)
  | up here fits _ ih => exact .up (kept _ here) fits (ih directory)
  | enter here fits proper inside _ ih =>
    exact .enter (kept _ here) fits proper (kept _ inside) (ih directory)
  | stop _ _ _ plain => exact absurd directory plain.notDirectory
  | hold _ _ _ _ last => cases last
  | link here fits proper entry further onward ih =>
    have elsewhere := ends.elsewhere entry onward.route directory
    refine .link (kept _ here) fits proper ?_ further (ih directory)
    rw [changed, Function.update_of_ne elsewhere, entry]

theorem followLinks_of_replaced {e : Entry} (ends : t.LeadsToEnd place)
    (notDirectory : t.get? place ≠ some .directory)
    (changed : u.get? = Function.update t.get? place (some e))
    (leads : t.followLinks longest true links here names = .ok ⟨goal, some .directory⟩) :
    u.followLinks longest true links here names = .ok ⟨goal, some .directory⟩ := by
  have directory := (entry_of_followLinks leads).symm
  rw [followLinks_eq_ok_iff] at leads ⊢
  exact leads.of_replaced ends notDirectory changed directory

end Renewal.Tree
