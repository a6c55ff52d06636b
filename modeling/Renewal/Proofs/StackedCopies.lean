import Renewal.Proofs.PutBack

/-! # Copies of copies

A file whose name has the suffix may be the copy of another and have a copy itself. A reset moves
all of them by one step as if at once: each takes the place of what it was the copy of, and none is
lost (`Backup.reset_moves_together`). This is due to the order in which copies are found, in which a
name comes before the same name with the suffix.
-/

namespace Renewal.Backup

open Renewal.Tree World FileSystem

variable {w : World} {root : Path} {names : Location} {name : EntryName}

/-- Each copy below a root has a name from which the suffix can be taken away, and no directory
stands where it is to be moved. -/
structure Movable (w : World) (root : Path) : Prop where
  notDot : ∀ names, ¬HasCopy w root names dot
  notDotDot : ∀ names, ¬HasCopy w root names dotDot
  live : ∀ names name, HasCopy w root names name →
    w.tree.get? (w.placeOf root ++ (names ++ [name])) ≠ some .directory

namespace Movable

theorem valid (movable : Movable w root) (sound : w.tree.Sound) (copy : HasCopy w root names name) :
    ∀ part ∈ names ++ [name], IsEntryName part := by
  have validCopy := copy.valid sound
  have full := validCopy (name ++ suffixBytes) (by simp)
  intro part member
  rcases List.mem_append.mp member with before | last
  · exact validCopy part (List.mem_append_left _ before)
  · rw [List.mem_singleton.mp last]
    refine ⟨copy.written, fun slash => full.uncut (List.mem_append_left _ slash),
      fun null => full.notNull (List.mem_append_left _ null), ?_, ?_⟩
    · rintro rfl
      exact movable.notDot names copy
    · rintro rfl
      exact movable.notDotDot names copy

/-- Where nothing stops a walk, nothing stops a copy from being put back. -/
theorem canRestore (movable : Movable w root) (sound : w.tree.Sound)
    (smooth : Walker.Smooth w root (('*' : CodePoint) :: defaultSuffix))
    (copy : HasCopy w root names name) : CanRestore w root names name := by
  obtain ⟨data, mode, file⟩ := copy.file
  refine ⟨smooth.faultless, ⟨movable.valid sound copy, ?_, ?_⟩, movable.live names name copy⟩
  · exact Path.isPath_below smooth.walkable.written (copy.valid sound)
  · apply smooth.asks names (name ++ suffixBytes)
    · rw [List.append_assoc, file]
      rfl
    · rw [List.append_assoc, file]
      simp
    · exact globMatches_suffix.mpr (List.suffix_append _ _)

end Movable

/-- A reset moves all copies below its root as if at once. Each file that has a copy then is what
the copy was, also if it is a copy itself; a copy without one of its own is gone; nothing else has
changed. It gives the files in the order of the paths of their copies, and nothing stops it but what
stops a walk. -/
theorem reset_moves_together (neat : Neat w.tree) (clean : root.Clean) (movable : Movable w root)
    (followLinks : Bool) :
    (reset root (.native followLinks) defaultSuffix).Ensures w
      (fun lives v =>
        (∀ place ∈ copied w root, v.tree.get? place = w.tree.get? (placeFor place)) ∧
        (∀ place ∈ copied w root, placeFor place ∉ copied w root →
          v.tree.get? (placeFor place) = none) ∧
        (∀ place ∉ copied w root, (∀ other ∈ copied w root, place ≠ placeFor other) →
          v.tree.get? place = w.tree.get? place) ∧
        ∃ pairs : List Pair, (pairs.Pairwise fun pair next =>
            pair.backup.le next.backup = true ∧ pair.backup ≠ next.backup) ∧
          (∀ pair, pair ∈ pairs ↔
            ∃ names name, pair = pairAt root names name ∧ HasCopy w root names name) ∧
          lives = pairs.map Pair.live)
      (fun _ _ => ¬Walker.Smooth w root (('*' : CodePoint) :: defaultSuffix)) := by
  refine (reset_puts_back neat clean followLinks).mono ?_ ?_
  · rintro lives v ⟨back, files, walked, found, same⟩
    exact ⟨back.live, back.copy, back.same, _, pairwise_filterMap_pairOf? walked, found, same⟩
  · rintro _ v ⟨-, rough | stumbles | ⟨names, name, copy, stuck⟩⟩ smooth
    · exact rough smooth
    · obtain ⟨names, copy⟩ := hasCopy_of_stumbles neat clean stumbles
      exact movable.notDot names copy
    · exact stuck (movable.canRestore neat.sound smooth copy)

/-- A directory with a copy of `a` and a copy of that copy. -/
def stacked : World where
  tree := ⟨[([[97] ++ suffixBytes], .file [1] 0o600),
    ([[97] ++ suffixBytes ++ suffixBytes], .file [2] 0o644)]⟩

theorem neat_stacked : Neat stacked.tree := by
  refine neat_of_entries (by decide) (by unfold Distinct; decide) ?_ (by simp [stacked])
  intro p member name inside
  rcases List.mem_pair.mp member with rfl | rfl <;> obtain rfl := List.mem_singleton.mp inside
  · exact ⟨⟨by decide, by decide, by decide, by decide, by decide⟩, by decide⟩
  · exact ⟨⟨by decide, by decide, by decide, by decide, by decide⟩, by decide⟩

/-- The copies in `stacked` are those of `a` and of its copy. -/
theorem hasCopy_stacked_iff : HasCopy stacked (Path.ofText "/") names name ↔
    names = [] ∧ (name = [97] ∨ name = [97] ++ suffixBytes) := by
  constructor
  · intro copy
    obtain ⟨data, mode, file⟩ := copy.file
    change stacked.tree.get? (names ++ [name ++ suffixBytes]) = _ at file
    have split : ∀ stem, names ++ [name ++ suffixBytes] = [stem ++ suffixBytes] →
        names = [] ∧ name = stem := by
      intro stem same
      simpa [List.append_eq_singleton_iff] using same
    rcases List.mem_pair.mp (mem_entries_of_get? (by simp) file) with same | same
    · obtain ⟨top, stem⟩ := split _ (congrArg Prod.fst same)
      exact ⟨top, .inl stem⟩
    · obtain ⟨top, stem⟩ := split _ (congrArg Prod.fst same)
      exact ⟨top, .inr stem⟩
  · rintro ⟨rfl, rfl | rfl⟩
    · exact ⟨by decide, [1], 0o600, by decide⟩
    · exact ⟨by decide, [2], 0o644, by decide⟩

theorem movable_stacked : Movable stacked (Path.ofText "/") := by
  refine ⟨fun names copy => ?_, fun names copy => ?_, fun names name copy => ?_⟩
  · exact absurd (hasCopy_stacked_iff.mp copy).2 (by decide)
  · exact absurd (hasCopy_stacked_iff.mp copy).2 (by decide)
  · obtain ⟨rfl, rfl | rfl⟩ := hasCopy_stacked_iff.mp copy <;> decide

/-- The copy of `a` takes its place, and the copy of the copy that of the copy. -/
theorem reset_moves_together_stacked : Neat stacked.tree ∧ Movable stacked (Path.ofText "/") ∧
    ∃ lives v, (reset (Path.ofText "/") (.native true) defaultSuffix).run stacked = .ok lives v ∧
      v.tree.get? [[97]] = some (.file [1] 0o600) ∧
      v.tree.get? [[97] ++ suffixBytes] = some (.file [2] 0o644) ∧
      v.tree.get? [[97] ++ suffixBytes ++ suffixBytes] = none := by
  have smooth : Walker.Smooth stacked (Path.ofText "/") (('*' : CodePoint) :: defaultSuffix) :=
    Walker.smooth_of_files rfl (by decide) rfl rfl (by decide) (by decide +kernel) _
  have moves := reset_moves_together neat_stacked (Path.clean_ofText "/") movable_stacked true
  have first : [[97]] ∈ copied stacked (Path.ofText "/") :=
    ⟨[], _, rfl, hasCopy_stacked_iff.mpr ⟨rfl, .inl rfl⟩⟩
  have second : [[97] ++ suffixBytes] ∈ copied stacked (Path.ofText "/") :=
    ⟨[], _, rfl, hasCopy_stacked_iff.mpr ⟨rfl, .inr rfl⟩⟩
  have third : [[97] ++ suffixBytes ++ suffixBytes] ∉ copied stacked (Path.ofText "/") := by
    rintro ⟨names, name, same, copy⟩
    obtain ⟨rfl, rfl | rfl⟩ := hasCopy_stacked_iff.mp copy
    · revert same
      decide
    · revert same
      decide
  refine ⟨neat_stacked, movable_stacked, ?_⟩
  cases ends : (reset (Path.ofText "/") (.native true) defaultSuffix).run stacked with
  | error failure v => exact absurd smooth (moves.of_error ends)
  | ok lives v =>
    obtain ⟨live, gone, -, -⟩ := moves.of_ok ends
    refine ⟨lives, v, rfl, ?_, ?_, ?_⟩
    · rw [live _ first]
      decide
    · rw [live _ second]
      decide
    · exact gone _ second third

end Renewal.Backup
