import Mathlib.Data.Set.Insert
import Renewal.Proofs.CopySearch
import Renewal.Proofs.Footprint

/-! # Putting saved copies back into a tree

A reset looks for the files below a root whose names end with the suffix and moves each to the name
without it. A copy may have a copy of its own, which then takes its place. As the copy is moved
first, one move does not get in the way of another (`Backup.PutBack`): in the end each file is what
its copy was, and nothing else has changed. `Backup.reset_puts_back` says this of every tree,
whoever made the copies, and what can stop a reset.
-/

namespace Renewal.Backup

open Renewal.Tree World FileSystem

variable {w u v : World} {root : Path} {names : Location} {name : EntryName} {place : Location}
  {done : Set Location}

theorem placeFor_below (top names : Location) (name : EntryName) :
    placeFor (top ++ (names ++ [name])) = top ++ (names ++ [name ++ suffixBytes]) := by
  rw [← List.append_assoc, placeFor_concat, List.append_assoc]

/-- A file below a root and its saved copy. -/
def pairAt (root : Path) (names : Location) (name : EntryName) : Pair :=
  ⟨root.below (names ++ [name ++ suffixBytes]), root.below (names ++ [name])⟩

/-- A saved copy belongs to one file. -/
theorem backup_injective {names' : Location} {name' : EntryName}
    (same : (pairAt root names name).backup = (pairAt root names' name').backup) :
    names = names' ∧ name = name' := by
  obtain ⟨sameNames, sameName⟩ := List.append_inj' (root.below_injective same) rfl
  exact ⟨sameNames, List.append_cancel_right (List.singleton_inj.mp sameName)⟩

/-- The copy of a copy comes after it. -/
theorem le_of_stacked (root : Path) (names : Location) (name : EntryName) :
    (pairAt root names name).backup.le (pairAt root names (name ++ suffixBytes)).backup = true := by
  have same : ∀ last, (root.below (names ++ [last])).sortKey =
      (root.below names).sortKey ++ [Utf8.decode last] := by
    intro last
    obtain ⟨start, front⟩ := root
    cases start <;> simp [Path.sortKey, Path.below]
  rw [Path.le, pairAt, pairAt, same, same, Path.keyLe_append_left, Path.keyLe_singleton,
    decode_saved (name ++ suffixBytes)]
  exact Text.le_append _ _

/-- The saved copy of a file below a root can be reached by its path. -/
structure Savable (w : World) (root : Path) (names : Location) (name : EntryName) : Prop where
  valid : ∀ part ∈ names ++ [name], IsEntryName part
  written : isPath ((root.below (names ++ [name ++ suffixBytes])).text) = true
  finds : ∃ found, w.find (root.below (names ++ [name ++ suffixBytes])).text = .ok found

theorem Savable.transfer (savable : Savable w root names name) (setting : v.setting = w.setting)
    (same : SamePassages w.tree v.tree) : Savable v root names name := by
  obtain ⟨found, finds⟩ := savable.finds
  exact ⟨savable.valid, savable.written, _, find_transfer setting same finds⟩

/-- Nothing but a fault stops a saved copy from taking the place of its file. -/
theorem Savable.canReplace (savable : Savable w root names name) (closed : w.tree.Closed)
    (free : w.tree.LinkFree) (clean : root.Clean) (faultless : w.faults = Faults.none)
    {data : Bytes} {mode : Nat}
    (copy : w.tree.get? (w.placeOf root ++ (names ++ [name ++ suffixBytes])) =
      some (.file data mode))
    (live : w.tree.get? (w.placeOf root ++ (names ++ [name])) ≠ some .directory) :
    CanReplace w (pairAt root names name).backup.text (pairAt root names name).live.text := by
  have validCopy := isEntryName_saved (savable.valid name (by simp))
  obtain ⟨found, finds⟩ := savable.finds
  have copyPlaces : lastPlace w (root.below (names ++ [name ++ suffixBytes])).text =
      .ok (w.placeOf root ++ names ++ [name ++ suffixBytes]) :=
    lastPlace_below free clean (valid_saved savable.valid) [] (by simpa using validCopy)
      (by simpa using finds)
  have livePlaces : lastPlace w (root.below (names ++ [name])).text =
      .ok (w.placeOf root ++ names ++ [name]) :=
    lastPlace_below free clean savable.valid suffixBytes validCopy finds
  rw [← List.append_assoc] at copy live
  refine ⟨faultless, savable.written, by rw [pairAt, ← written_saved, savable.written], _,
    replaced_eq_ok_iff.mpr ⟨_, _, copyPlaces, livePlaces, ?_, rfl⟩⟩
  have around := closed.directory_of_below (List.cons_ne_nil (name ++ suffixBytes) [])
    (by rw [copy]; rfl)
  exact mayReplace_of_plain closed copy (by simp) around live

/-- A tree without links in which every name has one line. -/
structure Neat (t : Tree) : Prop where
  sound : t.Sound
  linkFree : t.LinkFree
  oneLine : ∀ place, (t.get? place).isSome → ∀ name ∈ place, 0x0A ∉ name

theorem neat_of_entries {t : Tree}
    (around : ∀ p ∈ t.entries, t.get? p.1.dropLast = some .directory) (distinct : t.Distinct)
    (names : ∀ p ∈ t.entries, ∀ name ∈ p.1, IsEntryName name ∧ 0x0A ∉ name)
    (plain : ∀ p ∈ t.entries, ∀ target, p.2 ≠ .link target) : Neat t := by
  have inner : ∀ place, (t.get? place).isSome → ∀ name ∈ place, IsEntryName name ∧ 0x0A ∉ name := by
    intro place present name member
    obtain ⟨e, entry⟩ := Option.isSome_iff_exists.mp present
    exact names _ (mem_entries_of_get? (List.ne_nil_of_mem member) entry) name member
  refine ⟨⟨closed_of_entries around, distinct, fun place present name member =>
    (inner place present name member).1⟩, fun place target link => ?_,
    fun place present name member => (inner place present name member).2⟩
  have proper : place ≠ [] := by
    rintro rfl
    cases link
  exact plain _ (mem_entries_of_get? proper link) target rfl

/-- A tree without links in which every name has one line and no file has the suffix twice. -/
structure Tidy (t : Tree) : Prop where
  sound : t.Sound
  linkFree : t.LinkFree
  oneLine : ∀ place, (t.get? place).isSome → ∀ name ∈ place, 0x0A ∉ name
  once : ∀ around name data mode,
    t.get? (around ++ [name ++ suffixBytes ++ suffixBytes]) ≠ some (.file data mode)

theorem Tidy.neat {t : Tree} (tidy : Tidy t) : Neat t :=
  ⟨tidy.sound, tidy.linkFree, tidy.oneLine⟩

/-- A copy stands at the place for it, and where it is to be moved there is no directory. -/
structure Restorable (w : World) (place : Location) : Prop where
  inner : place ≠ []
  valid : ∀ name ∈ place, IsEntryName name
  copy : ∃ data mode, w.tree.get? (placeFor place) = some (.file data mode)
  live : w.tree.get? place ≠ some .directory

/-- What has a copy is none itself. -/
theorem Tidy.apart (tidy : Tidy w.tree)
    (copy : ∃ data mode, w.tree.get? (placeFor place) = some (.file data mode)) (other : Location) :
    place ≠ placeFor other := by
  intro same
  obtain ⟨data, mode, copy⟩ := copy
  rw [same, placeFor, placeFor, List.dropLast_concat, List.getLast?_concat] at copy
  exact tidy.once _ _ data mode copy

/-- Copies have been put back: `done` are the places they have been moved to. Where a copy stood
there may now be the copy of that copy. -/
structure PutBack (done : Set Location) (w v : World) : Prop where
  setting : v.setting = w.setting
  distinct : v.tree.Distinct
  each : ∀ place ∈ done, Restorable w place
  live : ∀ place ∈ done, v.tree.get? place = w.tree.get? (placeFor place)
  copy : ∀ place ∈ done, placeFor place ∉ done → v.tree.get? (placeFor place) = none
  same : ∀ place ∉ done, (∀ other ∈ done, place ≠ placeFor other) →
    v.tree.get? place = w.tree.get? place

namespace PutBack

theorem initial (distinct : w.tree.Distinct) : PutBack ∅ w w :=
  ⟨rfl, distinct, by simp, by simp, by simp, fun _ _ _ => rfl⟩

theorem of_unmoved (back : PutBack done w u) (unmoved : u.Unmoved v) : PutBack done w v := by
  refine ⟨unmoved.setting.trans back.setting, ?_, back.each, ?_, ?_, ?_⟩
  all_goals rw [unmoved.tree]
  · exact back.distinct
  · exact back.live
  · exact back.copy
  · exact back.same

theorem entry_cases (back : PutBack done w v) (place : Location) :
    place ∈ done ∨ (∃ other ∈ done, place = placeFor other ∧ v.tree.get? place = none) ∨
      v.tree.get? place = w.tree.get? place := by
  by_cases member : place ∈ done
  · exact .inl member
  · by_cases copy : ∃ other ∈ done, place = placeFor other
    · obtain ⟨other, put, rfl⟩ := copy
      exact .inr (.inl ⟨other, put, rfl, back.copy other put member⟩)
    · exact .inr (.inr (back.same place member fun other put same => copy ⟨other, put, same⟩))

theorem placeOf (back : PutBack done w v) (p : Path) : v.placeOf p = w.placeOf p :=
  placeOf_congr (directory_of_setting back.setting) p

/-- No directory or link has come or gone. -/
theorem passages (back : PutBack done w v) (free : w.tree.LinkFree) :
    SamePassages w.tree v.tree := by
  apply SamePassages.of_plain
  intro place
  rcases back.entry_cases place with member | ⟨other, member, rfl, gone⟩ | same
  · obtain ⟨data, mode, copy⟩ := (back.each place member).copy
    rw [back.live place member, copy]
    exact .inr ⟨.file data mode, (back.each place member).live, free place⟩
  · obtain ⟨data, mode, copy⟩ := (back.each other member).copy
    rw [gone, copy]
    exact .inr ⟨.none, .file data mode⟩
  · exact .inl same

theorem linkFree (back : PutBack done w v) (free : w.tree.LinkFree) : v.tree.LinkFree :=
  fun l target link => free l target (((back.passages free).link l target).mp link)

/-- What stands in the tree stood there before, or has been moved there. -/
theorem around (back : PutBack done w v) (present : (v.tree.get? place).isSome) :
    place ∈ done ∨ (w.tree.get? place).isSome := by
  rcases back.entry_cases place with member | ⟨other, member, rfl, gone⟩ | same
  · exact .inl member
  · rw [gone] at present
    cases present
  · rw [same] at present
    exact .inr present

theorem sound (back : PutBack done w v) (sound : w.tree.Sound) (free : w.tree.LinkFree) :
    v.tree.Sound := by
  refine ⟨fun around name present => ?_, back.distinct, fun place present => ?_⟩
  · rw [(back.passages free).directory]
    rcases back.around present with member | before
    · obtain ⟨data, mode, copy⟩ := (back.each _ member).copy
      rw [placeFor_concat] at copy
      exact sound.closed around _ (by rw [copy]; rfl)
    · exact sound.closed around name before
  · rcases back.around present with member | before
    · exact (back.each place member).valid
    · exact sound.names place before

theorem tidy (back : PutBack done w v) (tidy : Tidy w.tree) : Tidy v.tree := by
  refine ⟨back.sound tidy.sound tidy.linkFree, back.linkFree tidy.linkFree, ?_, ?_⟩
  · intro place present
    rcases back.around present with member | before
    · obtain ⟨data, mode, copy⟩ := (back.each place member).copy
      have lines := tidy.oneLine _ (by rw [copy]; rfl)
      obtain ⟨around, name, rfl⟩ :=
        (List.eq_nil_or_concat' place).resolve_left (back.each place member).inner
      rw [placeFor_concat] at lines
      intro part inside
      rcases List.mem_append.mp inside with above | last
      · exact lines part (List.mem_append_left _ above)
      · obtain rfl := List.mem_singleton.mp last
        exact fun line => lines (part ++ suffixBytes) (by simp) (List.mem_append_left _ line)
    · exact tidy.oneLine place before
  · intro around name data mode file
    rcases back.entry_cases (around ++ [name ++ suffixBytes ++ suffixBytes]) with
      member | ⟨other, member, here, gone⟩ | same
    · obtain ⟨data, mode, copy⟩ := (back.each _ member).copy
      rw [placeFor_concat] at copy
      exact tidy.once around (name ++ suffixBytes) data mode copy
    · rw [gone] at file
      cases file
    · exact tidy.once around name data mode (same ▸ file)

/-- A copy that has not been put back is still there, unless its own copy has taken its place. -/
theorem copy_of_new (back : PutBack done w u) (inner : place ≠ []) (new : place ∉ done)
    (later : placeFor place ∉ done) :
    u.tree.get? (placeFor place) = w.tree.get? (placeFor place) := by
  apply back.same _ later
  intro other member same
  obtain rfl := placeFor_injective inner (back.each other member).inner same
  exact new member

/-- One more copy has been put back, before its own copy is. -/
theorem insert (back : PutBack done w u) (restorable : Restorable w place) (new : place ∉ done)
    (later : placeFor place ∉ done)
    (tree : v.tree.get? = Function.update (Function.update u.tree.get? (placeFor place) none)
      place (u.tree.get? (placeFor place)))
    (distinct : v.tree.Distinct) (setting : v.setting = u.setting) :
    PutBack (insert place done) w v := by
  have different : ∀ other ∈ done, other ≠ place := fun other member same => new (same ▸ member)
  refine ⟨setting.trans back.setting, distinct, ?_, ?_, ?_, ?_⟩
  · intro other member
    rcases Set.mem_insert_iff.mp member with rfl | member
    · exact restorable
    · exact back.each other member
  · intro other member
    rcases Set.mem_insert_iff.mp member with rfl | member
    · rw [tree, Function.update_self, back.copy_of_new restorable.inner new later]
    · have apart : other ≠ placeFor place := fun same => later (same ▸ member)
      rw [tree, Function.update_of_ne (different other member), Function.update_of_ne apart,
        back.live other member]
  · intro other member outside
    obtain ⟨elsewhere, unput⟩ := not_or.mp (Set.mem_insert_iff.not.mp outside)
    rcases Set.mem_insert_iff.mp member with rfl | member
    · rw [tree, Function.update_of_ne elsewhere, Function.update_self]
    · have copies : placeFor other ≠ placeFor place := fun same =>
        different other member
          (placeFor_injective (back.each other member).inner restorable.inner same)
      rw [tree, Function.update_of_ne elsewhere, Function.update_of_ne copies,
        back.copy other member unput]
  · intro l unput notCopy
    have elsewhere : l ≠ place := fun same => unput (Set.mem_insert_iff.mpr (.inl same))
    rw [tree, Function.update_of_ne elsewhere,
      Function.update_of_ne (notCopy place (Set.mem_insert place done))]
    exact back.same l (fun member => unput (Set.mem_insert_of_mem place member))
      fun other member => notCopy other (Set.mem_insert_of_mem place member)

/-- Where no file has the suffix twice, the copies that have been put back are gone. -/
theorem gone (back : PutBack done w v) (tidy : Tidy w.tree) (member : place ∈ done) :
    v.tree.get? (placeFor place) = none :=
  back.copy place member fun copy => tidy.apart (back.each _ copy).copy place rfl

end PutBack

/-- A file below a root whose name is another name with the suffix. -/
structure HasCopy (w : World) (root : Path) (names : Location) (name : EntryName) : Prop where
  written : name ≠ []
  file : ∃ data mode, w.tree.get? (w.placeOf root ++ (names ++ [name ++ suffixBytes])) =
    some (.file data mode)

namespace HasCopy

theorem valid (copy : HasCopy w root names name) (sound : w.tree.Sound) :
    ∀ part ∈ names ++ [name ++ suffixBytes], IsEntryName part := by
  obtain ⟨data, mode, file⟩ := copy.file
  exact sound.below (by rw [file]; rfl)

theorem isPart (copy : HasCopy w root names name) (sound : w.tree.Sound) (notDot : name ≠ dot) :
    Path.IsPart (Utf8.decode name) :=
  isPart_decode copy.written notDot fun slash =>
    (copy.valid sound (name ++ suffixBytes) (by simp)).uncut (List.mem_append_left _ slash)

/-- A path that ends with two dots has no last place, so one with a last place names a file. -/
theorem valid_live (copy : HasCopy w root names name) (sound : w.tree.Sound) (notDot : name ≠ dot)
    {goal : Location} (goals : lastPlace u (root.below (names ++ [name])).text = .ok goal) :
    ∀ part ∈ names ++ [name], IsEntryName part := by
  obtain ⟨proper, -⟩ := last_of_lastPlace goals
  rw [Path.ending_text (by simp [Path.below]), name_below,
    Path.ending_of_uncut (copy.isPart sound notDot).uncut, Encoding.nameBytes_decode] at proper
  have full := copy.valid sound (name ++ suffixBytes) (by simp)
  intro other member
  rcases List.mem_append.mp member with before | last
  · exact copy.valid sound other (List.mem_append_left _ before)
  · rw [List.mem_singleton.mp last]
    exact ⟨copy.written, fun slash => full.uncut (List.mem_append_left _ slash),
      fun null => full.notNull (List.mem_append_left _ null), proper⟩

theorem restorable (copy : HasCopy w root names name) (sound : w.tree.Sound)
    (valid : ∀ part ∈ names ++ [name], IsEntryName part)
    (plain : w.tree.get? (w.placeOf root ++ (names ++ [name])) ≠ some .directory) :
    Restorable w (w.placeOf root ++ (names ++ [name])) := by
  obtain ⟨data, mode, file⟩ := copy.file
  refine ⟨by simp, ?_, ⟨data, mode, by rw [placeFor_below, file]⟩, plain⟩
  intro other member
  rcases List.mem_append.mp member with above | below
  · exact sound.names _ (by rw [file]; rfl) other (List.mem_append_left _ above)
  · exact valid other below

end HasCopy

/-- Nothing stops a copy from being put back. -/
structure CanRestore (w : World) (root : Path) (names : Location) (name : EntryName) : Prop where
  faultless : w.faults = Faults.none
  savable : Savable w root names name
  live : w.tree.get? (w.placeOf root ++ (names ++ [name])) ≠ some .directory

/-- Putting a copy back is one more step, or changes nothing. -/
theorem PutBack.restore_ensures (back : PutBack done w u) (neat : Neat w.tree) (clean : root.Clean)
    (copy : HasCopy w root names name) (notDot : name ≠ dot)
    (new : w.placeOf root ++ (names ++ [name]) ∉ done)
    (later : placeFor (w.placeOf root ++ (names ++ [name])) ∉ done) :
    (restore (pairAt root names name)).Ensures u
      (fun _ v => PutBack (Insert.insert (w.placeOf root ++ (names ++ [name])) done) w v)
      (fun _ v => PutBack done w v ∧ ¬CanRestore w root names name) := by
  have sound := back.sound neat.sound neat.linkFree
  have free := back.linkFree neat.linkFree
  have validCopy := copy.valid neat.sound
  have stands := back.placeOf root
  obtain ⟨data, mode, file⟩ := copy.file
  rw [← placeFor_below] at file
  have fileNow := (back.copy_of_new (by simp) new later).trans file
  unfold restore
  rw [Action.ensures_bind]
  refine (Action.Ensures.and (replace_ensures u _ _)
    ((within_replace _ _ _).distinct sound.distinct)).mono ?_ ?_
  · intro _ v moved
    obtain ⟨⟨source, goal, sources, goals, may, -, setting, moved⟩, distinct⟩ := moved
    have validLive := copy.valid_live neat.sound notDot goals
    have sourceAt := lastPlace_linkFree free sources
    have goalAt := lastPlace_linkFree free goals
    rw [pairAt, Path.ofText_text (clean.below validCopy), placeOf_below u root validCopy, stands,
      ← placeFor_below] at sourceAt
    rw [pairAt, Path.ofText_text (clean.below validLive), placeOf_below u root validLive,
      stands] at goalAt
    subst sourceAt goalAt
    have apart : placeFor (w.placeOf root ++ (names ++ [name])) ≠
        w.placeOf root ++ (names ++ [name]) :=
      placeFor_ne (by simp)
    have plain : u.tree.get? (w.placeOf root ++ (names ++ [name])) ≠ some .directory :=
      (mayReplace_cases may fileNow (by simp)).resolve_left apart
    rw [if_neg apart] at moved
    have restorable := copy.restorable neat.sound validLive fun directory =>
      plain (((back.passages neat.linkFree).directory _).mpr directory)
    have put := back.insert restorable new later (v := v) (by
      rw [moved, get?_move _ (by simp [placeFor]) (by simp)
        (sound.closed.leaf (by rw [fileNow]; simp)) (sound.closed.leaf plain)]) distinct setting
    rw [Action.ensures_bind]
    refine (Action.log_ensures v _ _).mono ?_ fun _ _ => False.elim
    intro _ v' unmoved
    exact put.of_unmoved unmoved
  · intro _ v raised
    obtain ⟨⟨unmoved, refused⟩, -⟩ := raised
    refine ⟨back.of_unmoved unmoved, fun can => refused ?_⟩
    have passages := back.passages neat.linkFree
    refine (can.savable.transfer back.setting passages).canReplace sound.closed free clean
      (by rw [faults_of_setting back.setting, can.faultless])
      (by rw [stands, ← placeFor_below, fileNow]) ?_
    rw [stands]
    exact fun directory => can.live ((passages.directory _).mp directory)

/-- The places of the files that pairs belong to. -/
def placesIn (w : World) (root : Path) (pairs : List Pair) : Set Location :=
  {place | ∃ names name, place = w.placeOf root ++ (names ++ [name]) ∧
    pairAt root names name ∈ pairs}

theorem mem_placesIn {pairs : List Pair} :
    w.placeOf root ++ (names ++ [name]) ∈ placesIn w root pairs ↔
      pairAt root names name ∈ pairs := by
  constructor
  · intro member
    obtain ⟨names', name', same, member⟩ := member
    obtain ⟨rfl, sameName⟩ := List.append_inj' (List.append_cancel_left same) rfl
    rwa [List.singleton_inj.mp sameName]
  · intro member
    exact ⟨names, name, rfl, member⟩

theorem placesIn_concat (w : World) (root : Path) (pairs : List Pair) (names : Location)
    (name : EntryName) :
    placesIn w root (pairs ++ [pairAt root names name]) =
      insert (w.placeOf root ++ (names ++ [name])) (placesIn w root pairs) := by
  ext place
  constructor
  · intro member
    obtain ⟨names', name', rfl, member⟩ := member
    rcases List.mem_append.mp member with before | last
    · exact .inr ⟨names', name', rfl, before⟩
    · obtain ⟨rfl, rfl⟩ := backup_injective (congrArg Pair.backup (List.mem_singleton.mp last))
      exact .inl rfl
  · intro member
    rcases Set.mem_insert_iff.mp member with rfl | ⟨names', name', rfl, before⟩
    · exact mem_placesIn.mpr (by simp)
    · exact mem_placesIn.mpr (List.mem_append_left _ before)

/-- Putting pairs back one after the other, each before the copy of its copy. -/
theorem restoreAll_ensures (neat : Neat w.tree) (clean : root.Clean) {pairs : List Pair}
    (nodup : pairs.Nodup)
    (ordered : pairs.Pairwise fun pair next => ∀ names name,
      pair = pairAt root names (name ++ suffixBytes) → next ≠ pairAt root names name)
    (each : ∀ pair ∈ pairs, ∃ names name, pair = pairAt root names name ∧
      HasCopy w root names name ∧ name ≠ dot)
    (start : PutBack ∅ w u) :
    (pairs.mapM restore).Ensures u (fun _ v => PutBack (placesIn w root pairs) w v)
      (fun _ v => (∃ done ⊆ placesIn w root pairs, PutBack done w v) ∧
        ∃ names name, pairAt root names name ∈ pairs ∧ ¬CanRestore w root names name) := by
  refine (Action.ensures_mapM (fun left v => ∃ before, before ++ left = pairs ∧
    PutBack (placesIn w root before) w v) ?_ ⟨[], rfl, ?_⟩).mono ?_ fun _ _ raised => raised
  · intro pair rest u' reached
    obtain ⟨before, rfl, back⟩ := reached
    obtain ⟨names, name, rfl, copy, notDot⟩ := each pair (by simp)
    have new : w.placeOf root ++ (names ++ [name]) ∉ placesIn w root before := by
      intro member
      have distinct := (List.nodup_append.mp nodup).2.2
      exact distinct _ (mem_placesIn.mp member) _ List.mem_cons_self rfl
    have later : placeFor (w.placeOf root ++ (names ++ [name])) ∉ placesIn w root before := by
      rw [placeFor_below, mem_placesIn]
      intro member
      have apart := (List.pairwise_append.mp ordered).2.2
      exact apart _ member _ List.mem_cons_self names name rfl rfl
    refine (back.restore_ensures neat clean copy notDot new later).mono ?_ ?_
    · intro _ v put
      refine ⟨before ++ [pairAt root names name], by simp, ?_⟩
      rwa [placesIn_concat]
    · intro _ v raised
      refine ⟨⟨_, ?_, raised.1⟩, names, name, by simp, raised.2⟩
      intro place member
      obtain ⟨names', name', rfl, before⟩ := member
      exact mem_placesIn.mpr (List.mem_append_left _ before)
  · have none : placesIn w root [] = ∅ := by
      ext place
      simp [placesIn]
    rwa [none]
  · intro _ v reached
    obtain ⟨before, rfl, back⟩ := reached
    rwa [List.append_nil]

/-- The places of the files below a root that have a copy, whether they are there or not. -/
def copied (w : World) (root : Path) : Set Location :=
  {place | ∃ names name, place = w.placeOf root ++ (names ++ [name]) ∧ HasCopy w root names name}

/-- When all copies have been put back none are left. -/
theorem PutBack.not_hasCopy (back : PutBack (copied w root) w v) (tidy : Tidy w.tree) :
    ¬HasCopy v root names name := by
  intro copy
  obtain ⟨data, mode, file⟩ := copy.file
  rw [back.placeOf, ← placeFor_below] at file
  by_cases put : w.placeOf root ++ (names ++ [name]) ∈ copied w root
  · rw [back.gone tidy put] at file
    cases file
  · have later : placeFor (w.placeOf root ++ (names ++ [name])) ∉ copied w root := fun member =>
      tidy.apart (back.each _ member).copy _ rfl
    rw [back.copy_of_new (by simp) put later, placeFor_below] at file
    exact put ⟨names, name, rfl, copy.written, data, mode, file⟩

section Search

variable {files : List Path}

theorem HasCopy.mem_files (copy : HasCopy w root names name) (neat : Neat w.tree)
    (clean : root.Clean)
    (walked : Walker.Walked w root (('*' : CodePoint) :: defaultSuffix) files) :
    (pairAt root names name).backup ∈ files := by
  obtain ⟨data, mode, file⟩ := copy.file
  have valid := copy.valid neat.sound
  have fits : globMatches (('*' : CodePoint) :: defaultSuffix)
      (Utf8.decode (name ++ suffixBytes)) = true :=
    globMatches_suffix.mpr (List.suffix_append _ _)
  obtain ⟨found, finds⟩ := walked.asks names (name ++ suffixBytes)
    (by rw [List.append_assoc, file]; rfl) (by rw [List.append_assoc, file]; simp) fits
  have here := find_below neat.linkFree clean valid finds
  rw [file] at here
  rw [here] at finds
  have written := Path.isPath_below walked.walkable.written valid
  exact (walked.mem_iff _).mpr ⟨names, name ++ suffixBytes, rfl, valid, fits,
    leadsToFile_iff.mpr ⟨written, _, data, mode, finds⟩⟩

/-- What a search cannot go on with is a copy whose name is a single dot without the suffix. -/
theorem hasCopy_of_stumbles (neat : Neat w.tree) (clean : root.Clean)
    (stumbles : Stumbles w root defaultSuffix) : ∃ names, HasCopy w root names dot := by
  obtain ⟨names, full, valid, leads, cut⟩ := stumbles
  obtain ⟨-, place, data, mode, finds⟩ := leadsToFile_iff.mp leads
  have here := find_below neat.linkFree clean valid finds
  injection here with _ entry
  obtain ⟨same | same, -⟩ := liveName?_eq_some_iff.mp cut
  · have bytes : full = dot ++ suffixBytes := by
      rw [← Encoding.nameBytes_decode full, same, Encoding.nameBytes_append]
      rfl
    exact ⟨names, by decide, data, mode, bytes ▸ entry.symm⟩
  · -- The other way to read a name has a newline at its end.
    exfalso
    apply neat.oneLine _ (by rw [← entry]; rfl) full (by simp)
    rw [← Encoding.nameBytes_decode full, same]
    decide

/-- A name with a single dot before the suffix stops a search. -/
theorem HasCopy.notDot (copy : HasCopy w root names name) (neat : Neat w.tree)
    (clean : root.Clean)
    (walked : Walker.Walked w root (('*' : CodePoint) :: defaultSuffix) files)
    (all : ∀ path ∈ files, ∃ live, livePath? path defaultSuffix = .ok live) : name ≠ dot := by
  rintro rfl
  obtain ⟨live, leads⟩ := all _ (copy.mem_files neat clean walked)
  have valid := copy.valid neat.sound (dot ++ suffixBytes) (by simp)
  obtain ⟨e, stuck⟩ := (livePath?_below_eq_error_iff valid).mpr
    (show liveName? (Utf8.decode (dot ++ suffixBytes)) defaultSuffix = some ("." : Text) by decide)
  rw [pairAt, stuck] at leads
  cases leads

theorem pairOf?_saved (neat : Neat w.tree) (copy : HasCopy w root names name)
    (notDot : name ≠ dot) :
    pairOf? defaultSuffix (pairAt root names name).backup = some (pairAt root names name) := by
  obtain ⟨data, mode, file⟩ := copy.file
  have oneLine := neat.oneLine _ (by rw [file]; rfl) (name ++ suffixBytes) (by simp)
  refine pairOf?_eq_some.mpr ⟨rfl, livePath?_of_decode root names (copy.isPart neat.sound notDot)
    (fun line => oneLine (List.mem_append_left _ line))
    (copy.valid neat.sound _ (by simp)) (decode_saved name)⟩

/-- A search gives the copies below its root. -/
theorem mem_filterMap_pairOf? (neat : Neat w.tree) (clean : root.Clean)
    (walked : Walker.Walked w root (('*' : CodePoint) :: defaultSuffix) files)
    (all : ∀ path ∈ files, ∃ live, livePath? path defaultSuffix = .ok live) (pair : Pair) :
    pair ∈ files.filterMap (pairOf? defaultSuffix) ↔
      ∃ names name, pair = pairAt root names name ∧ HasCopy w root names name := by
  rw [List.mem_filterMap]
  constructor
  · intro member
    obtain ⟨path, member, made⟩ := member
    obtain ⟨names, full, rfl, valid, fits, leads⟩ := (walked.mem_iff path).mp member
    obtain ⟨name, rfl⟩ := globMatches_suffix.mp fits
    obtain ⟨-, place, data, mode, finds⟩ := leadsToFile_iff.mp leads
    have here := find_below neat.linkFree clean valid finds
    injection here with _ entry
    have written : name ≠ [] := by
      rintro rfl
      rw [pairOf?, livePath?, name_below,
        show liveName? (Utf8.decode ([] ++ suffixBytes)) defaultSuffix = none by decide] at made
      cases made
    have copy : HasCopy w root names name := ⟨written, data, mode, entry.symm⟩
    have same := pairOf?_saved neat copy (copy.notDot neat clean walked all)
    exact ⟨names, name, Option.some.inj (made.symm.trans same), copy⟩
  · intro found
    obtain ⟨names, name, rfl, copy⟩ := found
    exact ⟨_, copy.mem_files neat clean walked,
      pairOf?_saved neat copy (copy.notDot neat clean walked all)⟩

end Search

/-- The pairs of a search are in order, so that no copy comes after its own copy. -/
theorem pairwise_filterMap_pairOf? {pattern : Text} {files : List Path}
    (walked : Walker.Walked w root pattern files) :
    (files.filterMap (pairOf? defaultSuffix)).Pairwise fun pair next =>
      pair.backup.le next.backup = true ∧ pair.backup ≠ next.backup := by
  have sorted := walked.sorted.and walked.nodup
  refine sorted.filterMap _ ?_
  intro path next before pair made pair' made'
  rwa [← (pairOf?_eq_some.mp made).1, ← (pairOf?_eq_some.mp made').1]

theorem restore_live (pair : Pair) (w : World) :
    (restore pair).Ensures w (fun live _ => live = pair.live) (fun _ _ => True) := by
  unfold restore
  rw [Action.ensures_bind]
  refine (replace_ensures w _ _).mono ?_ fun _ _ _ => trivial
  intro _ v _
  rw [Action.ensures_bind]
  exact (Action.log_ensures v _ _).mono (fun _ _ _ => rfl) fun _ _ => False.elim

/-- A reset that returns has put every copy below its root back, one after the other as their paths
are in order. What stops it is a walk that cannot go on, a name that is no more than a dot and the
suffix, or a copy that cannot be moved. -/
theorem reset_puts_back (neat : Neat w.tree) (clean : root.Clean) (followLinks : Bool) :
    (reset root (.native followLinks) defaultSuffix).Ensures w
      (fun lives v => PutBack (copied w root) w v ∧
        ∃ files, Walker.Walked w root (('*' : CodePoint) :: defaultSuffix) files ∧
          (∀ pair, pair ∈ files.filterMap (pairOf? defaultSuffix) ↔
            ∃ names name, pair = pairAt root names name ∧ HasCopy w root names name) ∧
          lives = (files.filterMap (pairOf? defaultSuffix)).map Pair.live)
      (fun _ v => (∃ done ⊆ copied w root, PutBack done w v) ∧
        (¬Walker.Smooth w root (('*' : CodePoint) :: defaultSuffix) ∨
          Stumbles w root defaultSuffix ∨
          ∃ names name, HasCopy w root names name ∧ ¬CanRestore w root names name)) := by
  have initial := PutBack.initial neat.sound.distinct
  unfold reset
  rw [Action.ensures_bind]
  refine (findAll_ensures neat.sound neat.linkFree clean followLinks defaultSuffix).mono ?_ ?_
  · intro pairs u searched
    obtain ⟨unmoved, files, walked, rfl, all⟩ := searched
    have found := mem_filterMap_pairOf? neat clean walked all
    have places : placesIn w root (files.filterMap (pairOf? defaultSuffix)) = copied w root := by
      ext place
      constructor
      · intro member
        obtain ⟨names, name, rfl, member⟩ := member
        obtain ⟨names', name', same, copy⟩ := (found _).mp member
        obtain ⟨rfl, rfl⟩ := backup_injective (congrArg Pair.backup same)
        exact ⟨names, name, rfl, copy⟩
      · intro member
        obtain ⟨names, name, rfl, copy⟩ := member
        exact mem_placesIn.mpr ((found _).mpr ⟨names, name, rfl, copy⟩)
    have sorted := pairwise_filterMap_pairOf? walked
    have nodup : (files.filterMap (pairOf? defaultSuffix)).Nodup :=
      sorted.imp fun before same => before.2 (congrArg Pair.backup same)
    have ordered : (files.filterMap (pairOf? defaultSuffix)).Pairwise fun pair next =>
        ∀ names name, pair = pairAt root names (name ++ suffixBytes) →
          next ≠ pairAt root names name := by
      refine sorted.imp ?_
      rintro _ _ ⟨before, different⟩ names name rfl rfl
      exact different (Path.le_antisymm rfl before (le_of_stacked root names name))
    refine ((restoreAll_ensures neat clean nodup ordered ?_ (initial.of_unmoved unmoved)).and
      (Action.ensures_mapM_map restore_live _ u)).mono ?_ ?_
    · intro pair member
      obtain ⟨names, name, rfl, copy⟩ := (found pair).mp member
      exact ⟨names, name, rfl, copy, copy.notDot neat clean walked all⟩
    · rintro lives v ⟨back, rfl⟩
      rw [places] at back
      exact ⟨back, files, walked, found, rfl⟩
    · rintro _ v ⟨⟨partly, names, name, member, stuck⟩, -⟩
      obtain ⟨names', name', same, copy⟩ := (found _).mp member
      obtain ⟨rfl, rfl⟩ := backup_injective (congrArg Pair.backup same)
      rw [places] at partly
      exact ⟨partly, .inr (.inr ⟨names, name, copy, stuck⟩)⟩
  · intro _ v raised
    obtain ⟨unmoved, stuck⟩ := raised
    exact ⟨⟨∅, Set.empty_subset _, initial.of_unmoved unmoved⟩, stuck.imp_right .inl⟩

end Renewal.Backup
