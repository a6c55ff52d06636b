import Mathlib.Data.Set.Insert
import Renewal.Proofs.AtomicSave
import Renewal.Proofs.PutBack

/-! # Trees with saved copies

A tree that runs have worked on differs from the one they started from in the files that have a
saved copy, and in nothing else (`Backup.State`). Saving a file adds one to them; putting a saved
copy back takes one away.
-/

namespace Renewal.Backup

open Renewal.Tree World FileSystem

/-- A tree to start from: without links and saved copies, and with names of one line. -/
structure Original (t : Tree) : Prop where
  sound : t.Sound
  linkFree : t.LinkFree
  unsaved : ∀ place e, IsSavedPlace place → t.get? place = some e → e = .directory
  oneLine : ∀ place, (t.get? place).isSome → ∀ name ∈ place, 0x0A ∉ name

theorem original_of_entries {t : Tree}
    (around : ∀ p ∈ t.entries, t.get? p.1.dropLast = some .directory) (distinct : t.Distinct)
    (names : ∀ p ∈ t.entries, ∀ name ∈ p.1, IsEntryName name ∧ 0x0A ∉ name)
    (plain : ∀ p ∈ t.entries, ∀ target, p.2 ≠ .link target)
    (unsaved : ∀ p ∈ t.entries, IsSavedPlace p.1 → p.2 = .directory) : Original t := by
  have neat := neat_of_entries around distinct names plain
  refine ⟨neat.sound, neat.linkFree, fun place e isSaved entry => ?_, neat.oneLine⟩
  have proper : place ≠ [] := by
    obtain ⟨around, name, rfl⟩ := isSaved
    simp
  exact unsaved _ (mem_entries_of_get? proper entry) isSaved

/-- A world to start from: without saved copies below a root. A search for them can still come upon
names with the suffix. -/
structure Bare (start : World) (root : Path) : Prop where
  tidy : Tidy start.tree
  none : ∀ names name, ¬HasCopy start root names name
  reached : ∀ names name e,
    start.tree.get? (start.placeOf root ++ (names ++ [name ++ suffixBytes])) = some e →
    e ≠ .directory →
    ∃ found, start.find (root.below (names ++ [name ++ suffixBytes])).text = .ok found

theorem Original.bare {start : World} (original : Original start.tree) (root : Path) :
    Bare start root := by
  have unsaved : ∀ around name e, start.tree.get? (around ++ [name ++ suffixBytes]) = some e →
      e = .directory :=
    fun around name e => original.unsaved _ e ⟨around, name, rfl⟩
  refine ⟨⟨original.sound, original.linkFree, original.oneLine, ?_⟩, ?_, ?_⟩
  · intro around name data mode file
    cases unsaved around (name ++ suffixBytes) _ file
  · intro names name copy
    obtain ⟨data, mode, file⟩ := copy.file
    rw [← List.append_assoc] at file
    cases unsaved _ name _ file
  · intro names name e present plain
    rw [← List.append_assoc] at present
    exact absurd (unsaved _ name e present) plain

/-- A file has a saved copy of what it was at the start, and holds that itself or what it was
rewritten to. -/
structure Copied (start : World) (root : Path) (Rewritten : Bytes → Bytes → Prop) (t : Tree)
    (place : Location) : Prop where
  plain : ¬IsSavedPlace place
  savable : ∃ names name, place = start.placeOf root ++ (names ++ [name]) ∧
    Savable start root names name
  free : start.tree.get? (placeFor place) = none
  kept : ∃ original mode data, start.tree.get? place = some (.file original mode) ∧
    t.get? (placeFor place) = some (.file original mode) ∧
    t.get? place = some (.file data mode) ∧ (data = original ∨ Rewritten original data)

/-- A world that runs on a root have worked on: `saved` are the files with a saved copy. -/
structure State (start : World) (root : Path) (Rewritten : Bytes → Bytes → Prop)
    (saved : Set Location) (w : World) : Prop where
  directory : w.directory = start.directory
  limits : w.limits = start.limits
  distinct : w.tree.Distinct
  copied : ∀ place ∈ saved, Copied start root Rewritten w.tree place
  same : ∀ place ∉ saved, (∀ other ∈ saved, place ≠ placeFor other) →
    w.tree.get? place = start.tree.get? place
  walkable : saved.Nonempty → Walker.Walkable start root

variable {start w v : World} {root : Path} {Rewritten : Bytes → Bytes → Prop}
  {saved : Set Location} {place other : Location}

namespace State

theorem initial (sound : start.tree.Sound) : State start root Rewritten ∅ start :=
  ⟨rfl, rfl, sound.distinct, by simp, fun _ _ _ => rfl, by simp⟩

theorem of_get? (state : State start root Rewritten saved w) (tree : v.tree.get? = w.tree.get?)
    (distinct : v.tree.Distinct) (setting : v.setting = w.setting) :
    State start root Rewritten saved v := by
  refine ⟨(directory_of_setting setting).trans state.directory,
    (limits_of_setting setting).trans state.limits, distinct, fun place member => ?_, ?_,
    state.walkable⟩
  · obtain ⟨plain, savable, free, kept⟩ := state.copied place member
    exact ⟨plain, savable, free, by rwa [tree]⟩
  · rw [tree]
    exact state.same

theorem of_unmoved (state : State start root Rewritten saved w) (unmoved : w.Unmoved v) :
    State start root Rewritten saved v :=
  state.of_get? (by rw [unmoved.tree]) (by rw [unmoved.tree]; exact state.distinct)
    unmoved.setting

theorem placeOf (state : State start root Rewritten saved w) (p : Path) :
    w.placeOf p = start.placeOf p :=
  placeOf_congr state.directory p

/-- What stands at a place: a file with a saved copy, a saved copy, or what was there. -/
theorem entry_cases (state : State start root Rewritten saved w) (place : Location) :
    place ∈ saved ∨ (∃ other ∈ saved, place = placeFor other) ∨
      w.tree.get? place = start.tree.get? place := by
  by_cases member : place ∈ saved
  · exact .inl member
  · by_cases copy : ∃ other ∈ saved, place = placeFor other
    · exact .inr (.inl copy)
    · exact .inr (.inr (state.same place member fun other isSaved same =>
        copy ⟨other, isSaved, same⟩))

/-- No directory or link has been made or removed. -/
theorem passages (state : State start root Rewritten saved w) :
    SamePassages start.tree w.tree := by
  apply SamePassages.of_plain
  intro place
  rcases state.entry_cases place with member | ⟨other, member, rfl⟩ | same
  · obtain ⟨original, mode, data, before, -, now, -⟩ := (state.copied place member).kept
    rw [before, now]
    exact .inr ⟨.file data mode, .file original mode⟩
  · obtain ⟨original, mode, data, -, now, -⟩ := (state.copied other member).kept
    rw [now, (state.copied other member).free]
    exact .inr ⟨.file original mode, .none⟩
  · exact .inl same

/-- Paths lead to the same places as at the start. -/
theorem find_on (state : State start root Rewritten saved w) {text : Text} {followLast : Bool}
    {found : Found} (finds : start.find text followLast = .ok found) :
    w.find text followLast = .ok ⟨found.location, w.tree.get? found.location⟩ :=
  find_of_passages state.directory state.limits state.passages finds

theorem find_back (state : State start root Rewritten saved w) {text : Text} {followLast : Bool}
    {found : Found} (finds : w.find text followLast = .ok found) :
    start.find text followLast = .ok ⟨found.location, start.tree.get? found.location⟩ :=
  find_of_passages state.directory.symm state.limits.symm state.passages.symm finds

theorem linkFree (state : State start root Rewritten saved w) (free : start.tree.LinkFree) :
    w.tree.LinkFree :=
  fun place target link => free place target ((state.passages.link place target).mp link)

theorem inner (state : State start root Rewritten saved w) (member : place ∈ saved) :
    place ≠ [] := by
  obtain ⟨names, name, rfl, -⟩ := (state.copied place member).savable
  simp

/-- A file with a saved copy is none itself. -/
theorem apart (state : State start root Rewritten saved w) (member : place ∈ saved)
    (other : Location) : place ≠ placeFor other :=
  fun same => (state.copied place member).plain (same ▸ isSavedPlace_placeFor other)

theorem around (state : State start root Rewritten saved w)
    (present : (w.tree.get? place).isSome) :
    (start.tree.get? place).isSome ∨ ∃ other ∈ saved, place = placeFor other := by
  rcases state.entry_cases place with member | copy | same
  · obtain ⟨content, mode, data, before, -⟩ := (state.copied place member).kept
    rw [before]
    exact .inl rfl
  · exact .inr copy
  · rw [← same]
    exact .inl present

theorem sound (state : State start root Rewritten saved w) (sound : start.tree.Sound) :
    w.tree.Sound := by
  refine ⟨fun around name present => ?_, state.distinct, fun place present => ?_⟩
  · rw [state.passages.directory]
    rcases state.around present with before | ⟨other, member, copy⟩
    · exact sound.closed around name before
    · obtain ⟨names, last, rfl, -⟩ := (state.copied other member).savable
      obtain ⟨content, mode, data, before, -⟩ := (state.copied _ member).kept
      rw [← List.append_assoc, placeFor_concat] at copy
      obtain ⟨rfl, -⟩ := List.append_inj' copy rfl
      refine sound.closed _ last ?_
      rw [List.append_assoc, before]
      rfl
  · rcases state.around present with before | ⟨other, member, rfl⟩
    · exact sound.names place before
    · obtain ⟨names, last, rfl, savable⟩ := (state.copied other member).savable
      obtain ⟨content, mode, data, before, -⟩ := (state.copied _ member).kept
      have valid := sound.names _ (by rw [before]; rfl)
      rw [← List.append_assoc] at valid ⊢
      rw [placeFor_concat]
      intro name inside
      rcases List.mem_append.mp inside with inside | inside
      · exact valid name (List.mem_append_left _ inside)
      · rw [List.mem_singleton.mp inside]
        exact isEntryName_saved (valid last (by simp))

/-- One more file has a saved copy. -/
theorem insert (state : State start root Rewritten saved w)
    {names : Location} {name : EntryName} {content data : Bytes} {mode : Nat}
    (stands : place = start.placeOf root ++ (names ++ [name]))
    (savable : Savable start root names name)
    (walkable : Walker.Walkable start root) (plain : ¬IsSavedPlace place)
    (present : w.tree.get? place = some (.file content mode))
    (free : w.tree.get? (placeFor place) = none)
    (holds : data = content ∨ Rewritten content data)
    (tree : v.tree.get? = Function.update
      (Function.update w.tree.get? (placeFor place) (some (.file content mode)))
        place (some (.file data mode)))
    (distinct : v.tree.Distinct) (setting : v.setting = w.setting) :
    State start root Rewritten (insert place saved) v := by
  have copyElsewhere : ∀ other ∈ saved, placeFor place ≠ placeFor other := by
    intro other member same
    obtain ⟨_, _, _, -, now, -⟩ := (state.copied other member).kept
    rw [← same, free] at now
    cases now
  have unsaved : place ∉ saved := by
    intro member
    exact copyElsewhere place member rfl
  have elsewhere : ∀ other, place ≠ placeFor other := by
    intro other same
    exact plain (same ▸ isSavedPlace_placeFor other)
  have before : w.tree.get? place = start.tree.get? place :=
    state.same place unsaved fun other _ => elsewhere other
  have freeBefore : w.tree.get? (placeFor place) = start.tree.get? (placeFor place) :=
    state.same _ (fun member => state.apart member place rfl) copyElsewhere
  refine ⟨(directory_of_setting setting).trans state.directory,
    (limits_of_setting setting).trans state.limits, distinct, ?_, ?_, fun _ => walkable⟩
  · intro other member
    rcases Set.mem_insert_iff.mp member with rfl | member
    · refine ⟨plain, ⟨names, name, stands, savable⟩, by rw [← freeBefore, free],
        content, mode, data, by rw [← before, present], ?_, ?_, holds⟩
      · rw [tree, Function.update_of_ne (Ne.symm (elsewhere _)), Function.update_self]
      · rw [tree, Function.update_self]
    · obtain ⟨plain, savable, free, kept⟩ := state.copied other member
      have otherPlace : other ≠ place := fun same => unsaved (same ▸ member)
      refine ⟨plain, savable, free, ?_⟩
      rw [tree, Function.update_of_ne (Ne.symm (elsewhere other)),
        Function.update_of_ne (Ne.symm (copyElsewhere other member)),
        Function.update_of_ne otherPlace, Function.update_of_ne (state.apart member place)]
      exact kept
  · intro l unsaved notCopy
    have elsewhere : l ≠ place := fun same => unsaved (Set.mem_insert_iff.mpr (.inl same))
    rw [tree, Function.update_of_ne elsewhere,
      Function.update_of_ne (notCopy place (Set.mem_insert place saved))]
    exact state.same l (fun member => unsaved (Set.mem_insert_of_mem place member))
      fun other member => notCopy other (Set.mem_insert_of_mem place member)

/-- Saved copies have been put back. -/
theorem of_putBack (state : State start root Rewritten saved w) {done : Set Location}
    (back : PutBack done w v) (among : done ⊆ saved) :
    State start root Rewritten (saved \ done) v := by
  have setting := back.setting
  refine ⟨(directory_of_setting setting).trans state.directory,
    (limits_of_setting setting).trans state.limits, back.distinct, ?_, ?_,
    fun ⟨l, left⟩ => state.walkable ⟨l, left.1⟩⟩
  · intro place left
    obtain ⟨member, notPut⟩ := left
    obtain ⟨plain, savable, free, kept⟩ := state.copied place member
    refine ⟨plain, savable, free, ?_⟩
    rw [back.same place notPut fun other _ => state.apart member other,
      back.same (placeFor place) (fun put => state.apart (among put) place rfl) ?_]
    · exact kept
    · intro other put same
      obtain rfl := placeFor_injective (state.inner member) (state.inner (among put)) same
      exact notPut put
  · intro l unsaved notCopy
    by_cases put : l ∈ done
    · obtain ⟨content, mode, data, before, copy, -⟩ := (state.copied l (among put)).kept
      rw [back.live l put, copy, before]
    by_cases copyPut : ∃ other ∈ done, l = placeFor other
    · obtain ⟨other, otherPut, rfl⟩ := copyPut
      rw [back.copy other otherPut put, (state.copied other (among otherPut)).free]
    have elsewhere : ∀ other ∈ done, l ≠ placeFor other := fun other put same =>
      copyPut ⟨other, put, same⟩
    rw [back.same l put elsewhere]
    refine state.same l (fun member => unsaved ⟨member, put⟩) fun other member => ?_
    by_cases otherPut : other ∈ done
    · exact elsewhere other otherPut
    · exact notCopy other ⟨member, otherPut⟩

/-- Where no file has a saved copy, the tree is as it was. -/
theorem unchanged (state : State start root Rewritten ∅ w) : w.tree.get? = start.tree.get? := by
  funext place
  exact state.same place (by simp) (by simp)

/-- A walk that ends shows that its directories could be reached from the start. -/
theorem walkable_back (state : State start root Rewritten saved w)
    (walkable : Walker.Walkable w root) : Walker.Walkable start root :=
  walkable.transfer state.directory.symm state.limits.symm state.passages.symm

theorem walkable_on (state : State start root Rewritten saved w)
    (walkable : Walker.Walkable start root) : Walker.Walkable w root :=
  walkable.transfer state.directory state.limits state.passages

theorem savable_of_free (state : State start root Rewritten saved w)
    (free : start.tree.LinkFree) {names : Location} {name : EntryName}
    (valid : ∀ part ∈ names ++ [name], IsEntryName part)
    (written : isPath ((root.below (names ++ [name])).text) = true) {found : Found}
    (finds : w.find (root.below (names ++ [name ++ suffixBytes])).text false = .ok found) :
    Savable start root names name := by
  refine ⟨valid, by rw [written_saved, written], _, find_of_unfollowed (state.find_back finds) ?_⟩
  exact fun target link => free _ target link

/-- Saving a file, however it ends, leaves a world with one more saved copy at most. -/
theorem save_ensures (state : State start root Rewritten saved w) (tidy : Tidy start.tree)
    (sees : w.Sees) (clears : w.Clears) (clean : root.Clean)
    (walkable : Walker.Walkable start root) {names : Location} {name : EntryName}
    (valid : ∀ part ∈ names ++ [name], IsEntryName part)
    (plain : ¬suffixBytes <:+ name)
    (written : isPath ((root.below (names ++ [name])).text) = true)
    {text encoding : Text}
    (rewrites : ∀ content mode bytes,
      w.tree.get? (w.placeOf root ++ (names ++ [name])) = some (.file content mode) →
      w.Writes encoding text bytes → Rewritten content bytes) :
    (save (root.below (names ++ [name])) text defaultSuffix encoding).Ensures w
      (fun _ v => ∃ saved, State start root Rewritten saved v)
      (fun _ v => ∃ saved, State start root Rewritten saved v) := by
  have sound := state.sound tidy.sound
  have free := state.linkFree tidy.linkFree
  have named := pathFor_below root names (valid name (by simp))
  have copyPlace : w.placeOf root ++ (names ++ [name ++ suffixBytes]) =
      placeFor (w.placeOf root ++ (names ++ [name])) := by
    rw [← List.append_assoc, ← List.append_assoc, placeFor_concat]
  have notSavedPlace : ¬IsSavedPlace (w.placeOf root ++ (names ++ [name])) := by
    rintro ⟨around, stem, same⟩
    rw [← List.append_assoc] at same
    obtain ⟨-, sameName⟩ := List.append_inj' same rfl
    exact plain ⟨stem, (List.singleton_inj.mp sameName).symm⟩
  refine (Action.Ensures.and (Backup.save_ensures sound.closed sees _ _ _ _)
    ((within_save _ _ _ _ _).distinct sound.distinct)).mono ?_ ?_
  · rintro backup v ⟨⟨called, copyAt, place, content, bytes, mode, done⟩, distinct⟩
    obtain rfl := Except.ok.inj (named.symm.trans called)
    have savable := state.savable_of_free tidy.linkFree valid written done.free
    have copyFree := find_below free clean (valid_saved valid) done.free
    obtain ⟨target, leads⟩ := done.leads
    have leads := find_below free clean valid leads
    obtain ⟨e, present⟩ := done.present
    have present := find_below free clean valid present
    simp only [Found.mk.injEq] at copyFree leads present
    obtain ⟨rfl, present⟩ := present
    obtain ⟨rfl, copyFree⟩ := copyFree
    have rewritten := rewrites content mode bytes leads.2.symm done.writes
    refine ⟨_, state.insert (by rw [state.placeOf]) savable walkable notSavedPlace
      leads.2.symm ?_ (.inr rewritten) ?_ distinct done.setting⟩
    · rw [← copyPlace, copyFree]
    · rw [done.tree, copyPlace]
  · rintro failure v ⟨left, distinct⟩
    cases left.stopped clears with
    | untouched tree setting => exact ⟨saved, state.of_get? tree distinct setting⟩
    | copied called leads added =>
      obtain rfl := Except.ok.inj (named.symm.trans called)
      have savable := state.savable_of_free tidy.linkFree valid written added.free
      have copyFree := find_below free clean (valid_saved valid) added.free
      have leads := find_below free clean valid leads
      simp only [Found.mk.injEq] at copyFree leads
      obtain ⟨rfl, copyFree⟩ := copyFree
      refine ⟨_, state.insert (by rw [state.placeOf]) savable walkable notSavedPlace
        leads.2.symm ?_ (.inl rfl) ?_ distinct added.setting⟩
      · rw [← copyPlace, copyFree]
      · have apart : w.placeOf root ++ (names ++ [name]) ≠
            placeFor (w.placeOf root ++ (names ++ [name])) := fun same =>
          notSavedPlace (same ▸ isSavedPlace_placeFor _)
        refine (Function.update_eq_iff.mpr ⟨?_, fun _ _ => ?_⟩).symm
        · rw [added.tree, copyPlace, Function.update_of_ne apart]
          exact leads.2
        · rw [added.tree, copyPlace]

end State

end Renewal.Backup
