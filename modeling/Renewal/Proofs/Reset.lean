import Mathlib.Order.BooleanAlgebra.Set
import Renewal.Proofs.SavedState

/-! # Putting saved copies back

The saved copies in a tree that runs have worked on are those that the runs have left, so that
putting all of them back gives the tree from which the runs started. Nothing but a fault stops a
reset from doing so, if the directories below its root can be listed.
-/

namespace Renewal.Backup.State

open Renewal.Tree World FileSystem

variable {start w v : World} {root : Path} {Rewritten : Bytes → Bytes → Prop}
  {saved : Set Location} {names : Location} {name : EntryName}

/-- Where the copy of a place stands, there is one that runs have left, or what was there before. -/
theorem copy_cases (state : State start root Rewritten saved w) (place : Location)
    (inner : place ≠ []) :
    place ∈ saved ∨ w.tree.get? (placeFor place) = start.tree.get? (placeFor place) := by
  rcases state.entry_cases (placeFor place) with member | ⟨other, member, same⟩ | same
  · exact absurd rfl (state.apart member place)
  · rw [placeFor_injective inner (state.inner member) same]
    exact .inl member
  · exact .inr same

/-- The files below the root whose names end with the suffix are the saved copies. -/
theorem mem_of_hasCopy (state : State start root Rewritten saved w) (bare : Bare start root)
    (copy : HasCopy w root names name) : start.placeOf root ++ (names ++ [name]) ∈ saved := by
  obtain ⟨data, mode, file⟩ := copy.file
  rw [state.placeOf, ← placeFor_below] at file
  rcases state.copy_cases (start.placeOf root ++ (names ++ [name])) (by simp) with
    member | same
  · exact member
  · rw [same, placeFor_below] at file
    exact absurd ⟨copy.written, data, mode, file⟩ (bare.none names name)

theorem savable_of_mem (state : State start root Rewritten saved w)
    (member : start.placeOf root ++ (names ++ [name]) ∈ saved) : Savable start root names name := by
  obtain ⟨names', name', same, savable⟩ := (state.copied _ member).savable
  obtain ⟨sameNames, sameName⟩ := List.append_inj' (List.append_cancel_left same) rfl
  obtain rfl := sameNames
  obtain rfl := List.singleton_inj.mp sameName
  exact savable

/-- The files that have a copy below the root are those that runs have left one of. -/
theorem copied_eq (state : State start root Rewritten saved w) (bare : Bare start root) :
    Backup.copied w root = saved := by
  ext place
  constructor
  · intro found
    obtain ⟨names, name, rfl, copy⟩ := found
    rw [state.placeOf]
    exact state.mem_of_hasCopy bare copy
  · intro member
    obtain ⟨names, name, rfl, savable⟩ := (state.copied place member).savable
    obtain ⟨content, mode, data, -, copy, -⟩ := (state.copied _ member).kept
    rw [← state.placeOf root] at copy ⊢
    rw [placeFor_below] at copy
    exact ⟨names, name, rfl, (savable.valid name (by simp)).written, content, mode, copy⟩

theorem tidy (state : State start root Rewritten saved w) (tidy : Tidy start.tree) :
    Tidy w.tree := by
  refine ⟨state.sound tidy.sound, state.linkFree tidy.linkFree, ?_, ?_⟩
  · intro place present
    rcases state.around present with before | ⟨other, member, rfl⟩
    · exact tidy.oneLine place before
    · obtain ⟨content, mode, data, before, -⟩ := (state.copied other member).kept
      have lines := tidy.oneLine other (by rw [before]; rfl)
      obtain ⟨around, last, rfl⟩ := (List.eq_nil_or_concat' other).resolve_left (state.inner member)
      rw [placeFor_concat]
      intro part inside
      rcases List.mem_append.mp inside with inside | inside
      · exact lines part (List.mem_append_left _ inside)
      · rw [List.mem_singleton.mp inside, List.mem_append, not_or]
        exact ⟨lines last (by simp), by decide⟩
  · intro around stem data mode file
    rw [← placeFor_concat, ← placeFor_concat] at file
    rcases state.copy_cases (placeFor (around ++ [stem])) (by simp [placeFor]) with
      member | same
    · exact state.apart member _ rfl
    · rw [same, placeFor_concat, placeFor_concat] at file
      exact tidy.once around stem data mode file

/-- Nothing but a fault stops a walk for the saved copies. -/
theorem smooth (state : State start root Rewritten saved w) (bare : Bare start root)
    (walkable : Walker.Walkable start root) (faultless : w.faults = Faults.none) :
    Walker.Smooth w root (('*' : CodePoint) :: defaultSuffix) := by
  refine ⟨faultless, state.walkable_on walkable, ?_⟩
  intro names full present plain fits
  obtain ⟨name, rfl⟩ := globMatches_suffix.mp fits
  obtain ⟨e, present⟩ := Option.isSome_iff_exists.mp present
  rw [present] at plain
  rw [List.append_assoc, state.placeOf, ← placeFor_below] at present
  rcases state.copy_cases (start.placeOf root ++ (names ++ [name])) (by simp) with
    member | same
  · obtain ⟨found, finds⟩ := (state.savable_of_mem member).finds
    exact ⟨_, state.find_on finds⟩
  · rw [same, placeFor_below] at present
    obtain ⟨found, finds⟩ := bare.reached names name e present (by simpa using plain)
    exact ⟨_, state.find_on finds⟩

theorem canRestore (state : State start root Rewritten saved w) (bare : Bare start root)
    (copy : HasCopy w root names name) (faultless : w.faults = Faults.none) :
    CanRestore w root names name := by
  have member := state.mem_of_hasCopy bare copy
  have savable := state.savable_of_mem member
  obtain ⟨found, finds⟩ := savable.finds
  obtain ⟨content, mode, data, -, -, live, -⟩ := (state.copied _ member).kept
  refine ⟨faultless, ⟨savable.valid, savable.written, _, state.find_on finds⟩, ?_⟩
  rw [state.placeOf, live]
  simp

/-- A reset that returns leaves no saved copy. What stops one is a fault, or a directory that cannot
be listed. -/
theorem reset_ensures (state : State start root Rewritten saved w) (bare : Bare start root)
    (clean : root.Clean) (followLinks : Bool) :
    (reset root (.native followLinks) defaultSuffix).Ensures w
      (fun _ v => State start root Rewritten ∅ v)
      (fun _ v => ∃ saved, State start root Rewritten saved v ∧
        ¬(Walker.Walkable start root ∧ w.faults = Faults.none)) := by
  have found := state.copied_eq bare
  have tidy := state.tidy bare.tidy
  refine (reset_puts_back tidy.neat clean followLinks).mono ?_ ?_
  · intro _ v outcome
    have restored := state.of_putBack outcome.1 found.subset
    rwa [found, Set.sdiff_self] at restored
  · intro _ v outcome
    obtain ⟨⟨done, among, back⟩, stuck⟩ := outcome
    refine ⟨_, state.of_putBack back (found ▸ among), fun onward => ?_⟩
    obtain ⟨walkable, faultless⟩ := onward
    rcases stuck with rough | stumbles | ⟨names, name, copy, stuck⟩
    · exact rough (state.smooth bare walkable faultless)
    · obtain ⟨names, copy⟩ := hasCopy_of_stumbles tidy.neat clean stumbles
      have savable := state.savable_of_mem (state.mem_of_hasCopy bare copy)
      exact (savable.valid dot (by simp)).proper.1 rfl
    · exact stuck (state.canRestore bare copy faultless)

end Renewal.Backup.State
