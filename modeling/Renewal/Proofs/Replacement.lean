import Renewal.Proofs.Route
import Renewal.Proofs.TemporaryFile

/-! # Replacing a file at once

A file is replaced by filling a temporary file and moving it in place.
`Backup.replaceAtOnce_ensures` says all that this can do, whichever operation fails: the target gets
the finished file and nothing else changes (`Backup.Placed`), or nothing changes at all, unless the
temporary file cannot be removed (`Backup.Halted`).
-/

namespace Renewal

namespace FileSystem

open Renewal.Tree World

variable {w v : World} {path : Text} {place : Location} {data : Bytes} {mode : Nat}

theorem fileAt_ensures (w : World) (path : Text) :
    (fileAt path).Ensures w
      (fun content v => v = w ∧ ∃ place e, Leads w path place e ∧
        e ≠ .directory ∧ (∀ data mode, e = .file data mode → content = (data, mode)))
      (fun _ v => v = w ∧ ∀ place data mode, ¬Leads w path place (.file data mode)) := by
  unfold fileAt
  rw [Action.ensures_bind]
  refine (locate_ensures w path).mono ?_ fun _ _ ⟨same, stuck⟩ =>
    ⟨same, fun place data mode => stuck place (.file data mode)⟩
  rintro ⟨place, e⟩ _ ⟨rfl, leads⟩
  cases e with
  | file data mode => exact ⟨rfl, place, _, leads, by simp, by rintro _ _ ⟨⟩; rfl⟩
  | directory =>
    refine ⟨rfl, fun place data mode leads' => ?_⟩
    cases leads.finds.symm.trans leads'.finds
  | link _ | pipe => exact ⟨rfl, place, _, leads, by simp, by simp⟩

/-- Nothing stops a file from being copied to a temporary one. -/
structure CanCopy (w : World) (source path : Text) : Prop where
  faultless : w.faults = Faults.none
  roomy : w.Roomy
  written : isPath path = true
  leads : ∃ place data mode, Leads w source place (.file data mode)

/-- A copy to a temporary file gives it the content and the mode of what the source led to before
the temporary file was made. -/
theorem copy_ensures (closed : w.tree.Closed) (draft : Draft w v path place data mode)
    (source : Text) :
    (copy source path).Ensures v
      (fun _ u => ∃ l content bits, Leads w source l (.file content bits) ∧
        Draft w u path place content bits)
      (fun _ u => Touched w u path place ∧ ¬CanCopy w source path) := by
  unfold copy
  rw [Action.ensures_bind]
  refine (draft.guardFault_ensures _).mono ?_ fun _ _ ⟨touched, faulty⟩ =>
    ⟨touched, fun can => faulty can.faultless⟩
  intro _ u still
  -- What can be copied was there before the temporary file, so it is another one.
  have onward : CanCopy w source path → ∃ l content bits,
      Leads u source l (.file content bits) ∧ l ≠ place := by
    intro can
    obtain ⟨l, content, bits, written, finds⟩ := can.leads
    refine ⟨l, content, bits, ⟨written, still.find_on finds⟩, ?_⟩
    rintro rfl
    have present := entry_of_find finds
    rw [still.absent] at present
    cases present
  rw [Action.ensures_bind, Action.ensures_get]
  dsimp only
  split
  · rename_i same
    refine ⟨⟨_, _, still⟩, fun can => ?_⟩
    obtain ⟨l, content, bits, leads, elsewhere⟩ := onward can
    exact elsewhere (by simpa [leadToSame, leads.finds, still.found] using same)
  rename_i different
  split
  · rename_i pipe
    refine ⟨⟨_, _, still⟩, fun can => ?_⟩
    obtain ⟨l, content, bits, leads, -⟩ := onward can
    simp [leads.finds, Except.toOption] at pipe
  rename_i noPipe
  rw [Action.ensures_bind]
  refine (fileAt_ensures u source).mono ?_ ?_
  · rintro ⟨content, bits⟩ _ ⟨rfl, l, e, ⟨asked, finds⟩, notDirectory, holds⟩
    -- The source is not the temporary file, so it led to the same entry before.
    have elsewhere : l ≠ place := by
      rintro rfl
      exact different (by simp [leadToSame, finds, still.found])
    have before := still.find_back finds elsewhere
    have isFile : ∃ data mode, e = .file data mode := by
      cases e with
      | file data mode => exact ⟨data, mode, rfl⟩
      | directory => exact absurd rfl notDirectory
      | pipe => exact absurd (by simp [finds, Except.toOption]) noPipe
      | link target => exact absurd rfl (find_no_link closed before target)
    obtain ⟨data, mode, rfl⟩ := isFile
    cases holds _ _ rfl
    dsimp only
    rw [Action.ensures_bind]
    refine (write_ensures still content).mono ?_ fun _ _ ⟨touched, stuck⟩ =>
      ⟨touched, fun can => stuck ⟨can.roomy, can.written⟩⟩
    intro _ _ written
    refine (setMode_ensures written bits).mono ?_ fun _ _ ⟨touched, null⟩ =>
      ⟨touched, fun can => by simp [can.written] at null⟩
    exact fun _ _ finished => ⟨l, content, bits, ⟨asked, before⟩, finished⟩
  · rintro _ _ ⟨rfl, stuck⟩
    refine ⟨⟨_, _, still⟩, fun can => ?_⟩
    obtain ⟨l, content, bits, leads, -⟩ := onward can
    exact stuck l content bits leads

theorem mayReplace_cases {start goal : Location} {e : Entry}
    (may : mayReplace w start goal = .ok ()) (present : w.tree.get? start = some e)
    (notDirectory : e ≠ .directory) :
    start = goal ∨ w.tree.get? goal ≠ some .directory := by
  by_cases same : start = goal
  · exact .inl same
  · right
    intro directory
    rw [mayReplace, present] at may
    simp only [same, ↓reduceIte, directory] at may
    split at may
    · cases may
    split at may
    · cases may
    cases e with
    | directory => exact notDirectory rfl
    | file _ _ | link _ | pipe => cases may

/-- What is no directory may take any place in a directory where no directory is. -/
theorem mayReplace_of_plain {start around : Location} {name : EntryName} {e : Entry}
    (closed : w.tree.Closed) (present : w.tree.get? start = some e) (plain : e ≠ .directory)
    (directory : w.tree.get? around = some .directory)
    (notDirectory : w.tree.get? (around ++ [name]) ≠ some .directory) :
    mayReplace w start (around ++ [name]) = .ok () := by
  rw [mayReplace, present]
  dsimp only
  by_cases same : start = around ++ [name]
  · rw [if_pos same]
  have notAbove : ¬start.isPrefixOf (around ++ [name]) = true := by
    intro isPrefix
    obtain ⟨below, whole⟩ := List.isPrefixOf_iff_prefix.mp isPrefix
    obtain ⟨rest, last, rfl⟩ := (List.eq_nil_or_concat below).resolve_left (by
      rintro rfl
      exact same (by rw [← whole, List.append_nil]))
    rw [List.concat_eq_append, ← List.append_assoc] at whole
    obtain ⟨rfl, -⟩ := List.append_inj' whole rfl
    have above : w.tree.get? start = some .directory := by
      by_cases top : rest = []
      · rwa [top, List.append_nil] at directory
      · exact closed.directory_of_below top (by rw [directory]; rfl)
    exact plain (Option.some.inj (present.symm.trans above))
  have notBelow : ¬(around ++ [name]).isPrefixOf start = true := by
    intro isPrefix
    obtain ⟨below, rfl⟩ := List.isPrefixOf_iff_prefix.mp isPrefix
    have inner : below ≠ [] := by
      rintro rfl
      exact same (List.append_nil _)
    exact notDirectory (closed.directory_of_below inner (by rw [present]; rfl))
  rw [if_neg same, if_neg notAbove, if_neg notBelow]
  cases goal : w.tree.get? (around ++ [name]) with
  | none => rfl
  | some e' =>
    cases e with
    | directory => exact absurd rfl plain
    | file _ _ | link _ | pipe =>
      cases e' with
      | directory => exact absurd goal notDirectory
      | file _ _ | link _ | pipe => rfl

theorem replaced_eq_ok_iff {source target : Text} {tree : Tree} :
    replaced w source target = .ok tree ↔
      ∃ start goal, lastPlace w source = .ok start ∧ lastPlace w target = .ok goal ∧
        mayReplace w start goal = .ok () ∧
        tree = if start = goal then w.tree else w.tree.move start goal := by
  unfold replaced
  cases starts : lastPlace w source with
  | error errno => simp [bind, Except.bind]
  | ok start =>
    cases goals : lastPlace w target with
    | error errno => simp [bind, Except.bind]
    | ok goal =>
      cases may : mayReplace w start goal with
      | error errno => simp [may, bind, Except.bind]
      | ok done => simp [may, bind, Except.bind, pure, Except.pure, eq_comm]

/-- Nothing stops the entry at one path from taking the place of another. -/
structure CanReplace (w : World) (source target : Text) : Prop where
  faultless : w.faults = Faults.none
  sourceWritten : isPath source = true
  targetWritten : isPath target = true
  moves : ∃ tree, replaced w source target = .ok tree

/-- Moving an entry changes nothing, or the tree as `Tree.move` does. -/
theorem replace_ensures (w : World) (source target : Text) :
    (replace source target).Ensures w
      (fun _ v => ∃ start goal, lastPlace w source = .ok start ∧ lastPlace w target = .ok goal ∧
        mayReplace w start goal = .ok () ∧ isPath target = true ∧
        v.setting = w.setting ∧
        v.tree = if start = goal then w.tree else w.tree.move start goal)
      (fun _ v => w.Unmoved v ∧ ¬CanReplace w source target) := by
  unfold replace
  rw [Action.ensures_bind]
  refine (guardFault_ensures w _).mono ?_ fun _ _ ⟨unmoved, faulty⟩ =>
    ⟨unmoved, fun can => faulty can.faultless⟩
  intro _ v unmoved
  rw [Action.ensures_bind]
  refine (guardPath_ensures v source).mono ?_ ?_
  rotate_left
  · rintro _ v ⟨rfl, null⟩
    exact ⟨unmoved, fun can => by simp [can.sourceWritten] at null⟩
  rintro _ v ⟨rfl, -⟩
  rw [Action.ensures_bind]
  refine (guardPath_ensures v target).mono ?_ ?_
  rotate_left
  · rintro _ v ⟨rfl, null⟩
    exact ⟨unmoved, fun can => by simp [can.targetWritten] at null⟩
  rintro _ v ⟨rfl, written⟩
  rw [Action.ensures_bind, Action.ensures_get]
  have sameReplaced : replaced v source target = replaced w source target := by
    unfold replaced mayReplace
    rw [lastPlace_of_unmoved unmoved, lastPlace_of_unmoved unmoved, unmoved.tree]
  rw [sameReplaced]
  cases outcome : replaced w source target with
  | error errno =>
    refine ⟨unmoved, fun can => ?_⟩
    obtain ⟨tree, moves⟩ := can.moves
    rw [outcome] at moves
    cases moves
  | ok tree =>
    obtain ⟨start, goal, starts, goals, may, moved⟩ := replaced_eq_ok_iff.mp outcome
    exact ⟨start, goal, starts, goals, may, written, unmoved.setting, moved⟩

/-- Moving an entry takes one change of the tree. -/
theorem replace_past (w : World) (source target : Text) :
    (replace source target).Ensures w (fun _ v => v.past = w.tree :: w.past)
      (fun _ v => w.Unmoved v) := by
  unfold replace
  rw [Action.ensures_bind]
  refine (within_guardFault Unmoved _ w).mono ?_ fun _ _ unmoved => unmoved
  intro _ v unmoved
  rw [Action.ensures_bind]
  refine (within_guardPath Unmoved source v).mono ?_ fun _ _ later => unmoved.trans later
  intro _ v later
  replace unmoved := unmoved.trans later
  rw [Action.ensures_bind]
  refine (within_guardPath Unmoved target v).mono ?_ fun _ _ later => unmoved.trans later
  intro _ v later
  replace unmoved := unmoved.trans later
  rw [Action.ensures_bind, Action.ensures_get]
  cases replaced v source target with
  | error errno => exact unmoved
  | ok tree =>
    change v.tree :: v.past = w.tree :: w.past
    rw [unmoved.tree, unmoved.past]

/-- Putting a temporary file in place of what stands at a path changes nothing else. -/
theorem replace_temporary_ensures (closed : w.tree.Closed)
    (draft : Draft w v path place data mode) (target : Text) :
    (replace path target).Ensures v
      (fun _ u => (∃ goal, isPath target = true ∧ lastPlace w target = .ok goal ∧
        w.tree.get? goal ≠ some .directory ∧
        u.tree.get? = Function.update w.tree.get? goal (some (.file data mode)) ∧
        u.setting = w.setting) ∧ w.Passed u (Drafted w place) ∧ lastPlace w path = .ok place)
      (fun _ u => Draft w u path place data mode) := by
  have temporary := draft.toAdded
  refine ((replace_ensures v path target).and (replace_past v path target)).mono ?_
    fun _ _ refused => draft.of_unmoved refused.2
  rintro _ u ⟨⟨start, goal, starts, goals, may, written, setting, moved⟩, past⟩
  have atPlace : start = place := by
    have found := find_of_lastPlace starts
    rw [temporary.found] at found
    injection found with same
    injection same with same
    exact same.symm
  subst atPlace
  have goalBefore : lastPlace w target = .ok goal :=
    lastPlace_transfer temporary.setting.symm temporary.passages.symm goals
  have leafBut : ∀ l, w.tree.get? l ≠ some .directory → v.tree.Leaf l := by
    intro l plain below proper
    by_cases other : l ++ below = start
    · -- The temporary file stands in a directory, so it is not below `l`.
      obtain ⟨around, last, cut, directory⟩ := lastPlace_around starts
      obtain ⟨rest, last', rfl⟩ := (List.eq_nil_or_concat below).resolve_left proper
      rw [List.concat_eq_append, ← List.append_assoc, cut] at other
      obtain ⟨same, -⟩ := List.append_inj' other rfl
      have isDirectory : w.tree.get? (l ++ rest) = some .directory := by
        rw [same]
        exact (temporary.passages.directory around).mp directory
      by_cases top : rest = []
      · subst top
        rw [List.append_nil] at isDirectory
        exact absurd isDirectory plain
      · exact absurd (closed.directory_of_below top (by rw [isDirectory]; rfl)) plain
    · rw [temporary.entry_of_ne other]
      exact closed.leaf plain below proper
  have goalPlain : w.tree.get? goal ≠ some .directory := by
    obtain same | plain := mayReplace_cases may temporary.entry (by simp)
    · rw [← same, temporary.absent]
      simp
    · exact fun directory => plain ((temporary.passages.directory goal).mpr directory)
  refine ⟨⟨goal, written, goalBefore, goalPlain, ?_, setting.trans temporary.setting⟩,
    draft.passed.change draft.drafted past,
    lastPlace_transfer temporary.setting.symm temporary.passages.symm starts⟩
  by_cases same : start = goal
  · rw [moved, if_pos same, temporary.tree, same]
  · have free : w.tree.get? start ≠ some .directory := by
      rw [temporary.absent]
      simp
    rw [moved, if_neg same, get?_move _ temporary.inner (lastPlace_inner goals)
      (leafBut start free) (leafBut goal goalPlain), temporary.entry, temporary.tree,
      Function.update_idem, ← temporary.absent, Function.update_eq_self]

/-- A temporary file is gone, or has stayed behind because removing it failed. -/
structure Discarded (w u : World) (place : Location) : Prop where
  drafted : Drafted w place u.tree
  cleared : w.Clears → u.tree.get? = w.tree.get?
  setting : u.setting = w.setting
  passed : w.Passed u (Drafted w place)

theorem remove_temporary_ensures (draft : Draft w v path place data mode) :
    (remove path).Ensures v (fun _ u => Discarded w u place) (fun _ u => Discarded w u place) := by
  unfold remove Action.fault?
  rw [Action.ensures_bind, Action.ensures_modifyGet]
  dsimp only
  have ticked : v.Unmoved { v with clock := v.clock + 1 } := ⟨rfl, rfl, rfl⟩
  have now := draft.of_unmoved ticked
  cases fault : v.faults v.clock (.remove path) with
  | some errno =>
    have kept : Discarded w { v with clock := v.clock + 1 } place := by
      refine ⟨now.drafted, fun clears => ?_, now.setting, now.passed⟩
      rw [(clears_of_setting draft.setting).mpr clears] at fault
      cases fault
    rw [Action.ensures_ite]
    exact ⟨fun _ => kept, fun _ => kept⟩
  | none =>
    rw [Action.ensures_modify]
    simp only [now.found]
    have restored : ({ v with clock := v.clock + 1 }.change
        ({ v with clock := v.clock + 1 }.tree.erase place)).tree.get? = w.tree.get? := by
      rw [change_tree, get?_erase _ now.inner, now.tree, Function.update_idem, ← now.absent,
        Function.update_eq_self]
    exact ⟨.inl restored, fun _ => restored, now.setting, now.passed.change now.drafted rfl⟩

/-- Something stands at a path. -/
def Occupied (w : World) (path : Text) : Prop :=
  isPath path = true ∧ ∃ place e, w.find path false = .ok ⟨place, some e⟩

/-- What is said to be taken is; but a look that fails finds nothing. -/
theorem isTaken_ensures (w : World) (path : Text) :
    (isTaken path).Ensures w
      (fun taken v => w.Unmoved v ∧
        if taken then Occupied w path else w.Sees → ¬Occupied w path)
      (fun _ _ => False) := by
  unfold isTaken Occupied
  cases written : isPath path with
  | false => exact ⟨.refl w, by simp⟩
  | true =>
    rw [Bool.not_true, if_neg Bool.false_ne_true, Action.fault?, Action.ensures_bind,
      Action.ensures_modifyGet]
    dsimp only
    have ticked : w.Unmoved { w with clock := w.clock + 1 } := ⟨rfl, rfl, rfl⟩
    cases fault : w.faults w.clock (.look path) with
    | some errno =>
      refine ⟨ticked, ?_⟩
      rw [if_neg Bool.false_ne_true]
      intro sees
      rw [sees] at fault
      cases fault
    | none =>
      rw [Action.ensures_bind, Action.ensures_get, find_of_unmoved ticked]
      cases finds : w.find path false with
      | error errno => exact ⟨ticked, by simp⟩
      | ok found =>
        obtain ⟨place, entry⟩ := found
        cases entry with
        | none => exact ⟨ticked, by simp⟩
        | some e => exact ⟨ticked, by simp⟩

end FileSystem

namespace Backup

open FileSystem Renewal.Tree World

variable {w v : World} {path : Text} {place : Location} {data : Bytes} {mode : Nat}

/-- A file has been put in place of what stood at a path, and nothing else has changed. -/
structure Placed (w v : World) (path : Text) (goal : Location) (data : Bytes) (mode : Nat) :
    Prop where
  written : isPath path = true
  places : lastPlace w path = .ok goal
  notDirectory : w.tree.get? goal ≠ some .directory
  tree : v.tree.get? = Function.update w.tree.get? goal (some (.file data mode))
  setting : v.setting = w.setting

/-- The name of an encoding can be passed on. -/
def Passable (encoding : Text) : Prop :=
  Encoding.checkScalars encoding = .ok () ∧ encoding.contains (.ofNat 0) = false

theorem checkEncodingName_ensures (w : World) (encoding : Text) :
    (checkEncodingName encoding).Ensures w (fun _ v => v = w ∧ Passable encoding)
      (fun _ v => v = w ∧ ¬Passable encoding) := by
  unfold checkEncodingName Passable
  rw [Action.ensures_bind]
  cases scalars : Encoding.checkScalars encoding with
  | error e => exact ⟨rfl, by simp⟩
  | ok done =>
    rw [Action.ofExcept, Action.ensures_pure]
    cases null : encoding.contains (.ofNat 0) with
    | true => exact ⟨rfl, by simp⟩
    | false => exact ⟨rfl, rfl, rfl⟩

/-- A temporary file is given the mode of another file. -/
theorem copyMode_ensures (draft : Draft w v path place data mode) {like : Text}
    {likePlace : Location} {likeData : Bytes} {likeMode : Nat}
    (likeFound : w.find like = .ok ⟨likePlace, some (.file likeData likeMode)⟩) :
    (copyMode like path).Ensures v (fun _ u => Draft w u path place data likeMode)
      (fun _ u => Touched w u path place ∧ ¬(w.faults = Faults.none ∧
        isPath path = true ∧ isPath like = true)) := by
  unfold copyMode
  rw [Action.ensures_bind]
  refine (draft.guardFault_ensures _).mono ?_ fun _ _ ⟨touched, faulty⟩ =>
    ⟨touched, fun can => faulty can.1⟩
  intro _ u still
  have likeNow := still.find_on likeFound
  rw [Action.ensures_bind]
  refine (locate_ensures u like).mono ?_ ?_
  · rintro ⟨l, e⟩ _ ⟨rfl, leads⟩
    cases likeNow.symm.trans leads.finds
    exact (setMode_ensures still likeMode).mono (fun _ _ finished => finished)
      fun _ _ ⟨touched, null⟩ => ⟨touched, fun can => by simp [can.2.1] at null⟩
  · rintro _ _ ⟨rfl, stuck⟩
    exact ⟨⟨_, _, still⟩, fun can => stuck _ _ ⟨can.2.2, likeNow⟩⟩

/-- Nothing stops a temporary file from being filled with a text, to be like another file. -/
structure CanFill (w : World) (text encoding like path : Text) : Prop where
  faultless : w.faults = Faults.none
  roomy : w.Roomy
  written : isPath path = true
  likeWritten : isPath like = true
  passable : Passable encoding
  encodes : ∃ bytes, w.Writes encoding text bytes

/-- Filling a temporary file gives it the encoded text and the mode of the file that it is to be
like. -/
theorem fillWith_ensures (draft : Draft w v path place data mode) {like : Text}
    {likePlace : Location} {likeData : Bytes} {likeMode : Nat}
    (likeFound : w.find like = .ok ⟨likePlace, some (.file likeData likeMode)⟩)
    (text encoding : Text) :
    (fillWith text encoding like path).Ensures v
      (fun _ u => Passable encoding ∧ ∃ bytes, w.Writes encoding text bytes ∧
        Draft w u path place bytes likeMode)
      (fun _ u => Touched w u path place ∧ ¬CanFill w text encoding like path) := by
  unfold fillWith
  rw [Action.ensures_bind]
  refine (draft.guardFault_ensures _).mono ?_ fun _ _ ⟨touched, faulty⟩ =>
    ⟨touched, fun can => faulty can.faultless⟩
  intro _ first still
  rw [Action.ensures_bind]
  refine (checkEncodingName_ensures first encoding).mono ?_ ?_
  rotate_left
  · rintro _ _ ⟨rfl, refused⟩
    exact ⟨⟨_, _, still⟩, fun can => refused can.passable⟩
  rintro _ second ⟨rfl, passable⟩
  rw [Action.ensures_bind, Action.ensures_get, codec?_of_setting still.setting]
  cases known : w.codec? encoding with
  | none =>
    refine ⟨⟨_, _, still⟩, fun can => ?_⟩
    obtain ⟨_, codec, _, known', -⟩ := can.encodes
    simp [known] at known'
  | some codec =>
    dsimp only
    rw [Action.ensures_bind]
    cases encodes : codec.encode text with
    | error e =>
      refine ⟨⟨_, _, still⟩, fun can => ?_⟩
      obtain ⟨_, codec', encoded, known', encodes', -⟩ := can.encodes
      cases known.symm.trans known'
      cases encodes.symm.trans encodes'
    | ok encoded =>
      change Action.Ensures (do write path encoded.body; copyMode like path) second _ _
      rw [Action.ensures_bind]
      refine (write_ensures still encoded.body).mono ?_ fun _ _ ⟨touched, stuck⟩ =>
        ⟨touched, fun can => stuck ⟨can.roomy, can.written⟩⟩
      intro _ third written
      refine (copyMode_ensures written likeFound).mono ?_ fun _ _ ⟨touched, stuck⟩ =>
        ⟨touched, fun can => stuck ⟨can.faultless, can.written, can.likeWritten⟩⟩
      exact fun _ _ finished =>
        ⟨passable, encoded.body, ⟨codec, encoded, known, encodes, rfl⟩, finished⟩

/-- A tree as before, or with a temporary file for a target in whatever state. -/
def Drafting (w : World) (target : Path) (t : Tree) : Prop :=
  t.get? = w.tree.get? ∨
    ∃ n k place data mode,
      isPath (temporaryPath (Location.text w.directory) target (w.draws n k)) = true ∧
      w.find (temporaryPath (Location.text w.directory) target (w.draws n k)) false =
        .ok ⟨place, none⟩ ∧
      t.get? = Function.update w.tree.get? place (some (.file data mode))

/-- Replacing a file has been stopped: the tree is as before, unless removing the temporary file
failed. -/
structure Halted (w v : World) (target : Path) : Prop where
  drafting : Drafting w target v.tree
  cleared : w.Clears → v.tree.get? = w.tree.get?
  setting : v.setting = w.setting

theorem Halted.of_unmoved (unmoved : w.Unmoved v) (target : Path) : Halted w v target :=
  ⟨.inl (by rw [unmoved.tree]), fun _ => by rw [unmoved.tree], unmoved.setting⟩

/-- A temporary file for a target can be told by some letters. -/
def RoomFor (w : World) (target : Path) (letters : Text) : Prop :=
  isPath (temporaryPath (Location.text w.directory) target letters) = true ∧
    ∃ place, lastPlace w (temporaryPath (Location.text w.directory) target letters) = .ok place

/-- Replacing a file at once puts a finished file in place, or is stopped. -/
theorem replaceAtOnce_ensures (closed : w.tree.Closed) (unmoved : w.Unmoved v) (target : Path)
    (fill : Text → Action Unit) (Finished : Bytes → Nat → Prop)
    (fills : ∀ path u place, Draft w u path place [] 0o600 →
      (fill path).Ensures u
        (fun _ u => ∃ data mode, Finished data mode ∧ Draft w u path place data mode)
        (fun _ u => Touched w u path place)) :
    (replaceAtOnce target fill).Ensures v
      (fun _ u => (∃ goal data mode, Finished data mode ∧
        Placed w u target.text goal data mode) ∧ w.Passed u (Drafting w target) ∧
        ∃ n, ∃ k < greatestAttempts, RoomFor w target (w.draws n k))
      (fun _ u => Halted w u target ∧ w.Passed u (Drafting w target)) := by
  unfold replaceAtOnce
  rw [Action.ensures_bind, Action.ensures_get]
  dsimp only
  rw [Action.ensures_bind, directory_of_setting unmoved.setting]
  refine (createTemporary_ensures v _).mono ?_ ?_
  · rintro path u ⟨⟨k, few, drawn⟩, written, place, made⟩
    have draft := made.since unmoved
    rw [show v.draws = w.draws from congrArg Setting.draws unmoved.setting] at drawn
    have drafting : ∀ t, Drafted w place t → Drafting w target t := by
      intro t drafted
      refine drafted.imp_right fun made => ?_
      obtain ⟨data, mode, tree⟩ := made
      exact ⟨_, k, place, data, mode, drawn ▸ written, drawn ▸ draft.free, tree⟩
    have halted : ∀ u, Discarded w u place →
        Halted w u target ∧ w.Passed u (Drafting w target) := fun u discarded =>
      ⟨⟨drafting _ discarded.drafted, discarded.cleared, discarded.setting⟩,
        discarded.passed.mono drafting⟩
    -- Whatever has been done to the temporary file, removing it undoes it.
    have cleaned : ∀ failure u, Touched w u path place →
        (do remove path; throw failure : Action Unit).Ensures u (fun _ _ => False)
          (fun _ u => Halted w u target ∧ w.Passed u (Drafting w target)) := by
      rintro failure u ⟨data, mode, touched⟩
      rw [Action.ensures_bind]
      exact (remove_temporary_ensures touched).mono (fun _ => halted) fun _ => halted
    rw [Action.ensures_tryCatch, Action.ensures_bind]
    refine (fills path u place draft).mono ?_ fun failure u touched =>
      (cleaned failure u touched).mono (fun _ _ => False.elim) fun _ _ restored => restored
    rintro _ u ⟨data, mode, finished, filled⟩
    refine (replace_temporary_ensures closed filled target.text).mono ?_ ?_
    · rintro _ after ⟨⟨goal, asked, places, notDirectory, tree, setting⟩, passed, starts⟩
      exact ⟨⟨goal, data, mode, finished, asked, places, notDirectory, tree, setting⟩,
        passed.mono drafting, v.clock, k, few, drawn ▸ written, place, drawn ▸ starts⟩
    · exact fun failure after left => (cleaned failure after ⟨data, mode, left⟩).mono
        (fun _ _ => False.elim) fun _ _ restored => restored
  · rintro _ u ⟨later, -⟩
    replace later := unmoved.trans later
    exact ⟨.of_unmoved later target, .of_unmoved later⟩

namespace Placed

variable {goal : Location}

theorem around (placed : Placed w v path goal data mode) (closed : w.tree.Closed) :
    v.tree.Closed := by
  obtain ⟨around, last, rfl, directory⟩ := lastPlace_around placed.places
  exact closed.update placed.notDirectory (fun _ => directory) placed.tree

/-- Paths have the same last places as before. -/
theorem lastPlace (placed : Placed w v path goal data mode) (ends : w.tree.LeadsToEnd goal)
    {other : Text} (places : FileSystem.lastPlace w other = .ok place) :
    FileSystem.lastPlace v other = .ok place := by
  obtain ⟨written, short, names, last, around, cut, proper, fits, rfl, leads⟩ :=
    lastPlace_eq_ok_iff.mp places
  rw [lastPlace_eq_ok_iff, limits_of_setting placed.setting, directory_of_setting placed.setting]
  exact ⟨written, short, names, last, around, cut, proper, fits, rfl,
    followLinks_of_replaced ends placed.notDirectory placed.tree leads⟩

/-- Where nothing stood, there is one more file now. -/
theorem added (placed : Placed w v path goal data mode) (free : ¬Occupied w path) :
    Added w v path goal data mode := by
  have finds := find_of_lastPlace placed.places
  have absent : w.tree.get? goal = none := by
    by_contra present
    obtain ⟨e, entry⟩ := Option.ne_none_iff_exists'.mp present
    rw [entry] at finds
    exact free ⟨placed.written, goal, e, finds⟩
  rw [absent] at finds
  exact ⟨finds, placed.tree, placed.setting⟩

end Placed

theorem leadsToEnd_of_find {text : Text} {target : Location} {e : Entry}
    (places : lastPlace w text = .ok place) (finds : w.find text = .ok ⟨target, some e⟩)
    (notDirectory : e ≠ .directory) : w.tree.LeadsToEnd place := by
  obtain ⟨-, -, names, last, around, cut, proper, -, rfl, leads⟩ := lastPlace_eq_ok_iff.mp places
  obtain ⟨-, -, whole⟩ := find_eq_ok_iff.mp finds
  rw [cut] at whole
  obtain ⟨middle, first, second⟩ := (route_of_followLinks whole).cut
  cases first.unique (route_of_followLinks leads)
  intro around' name link same entry
  obtain ⟨rfl, sameName⟩ := List.append_inj' same rfl
  cases sameName
  refine ⟨target, ?_, ?_⟩
  · cases second with
    | dot => exact absurd rfl proper.1
    | up => exact absurd rfl proper.2
    | enter _ _ plain => exact absurd entry (plain link)
    | link _ _ entry' onward =>
      rw [entry] at entry'
      cases entry'
      simpa using onward
  · rw [← entry_of_find finds]
    simpa using notDirectory

end Backup

end Renewal
