import Renewal.Backup.Save
import Renewal.Proofs.Resolution

/-! # Added files

A temporary file is made at a place that was free. As long as it is only written to, the world
differs from the one before by this one file; if it is removed the tree is as before, and if it is
put in place of a file the tree is as before except for that file.
-/

namespace Renewal

namespace Tree

variable {t u : Tree} {place : Location}

theorem SamePassages.of_get? (same : u.get? = t.get?) : SamePassages t u :=
  ⟨fun l => by rw [same], fun l target => by rw [same]⟩

/-- Trees that differ only in what no path can go through have the same passages. -/
theorem SamePassages.of_plain
    (plain : ∀ l, u.get? l = t.get? l ∨ IsPlain (u.get? l) ∧ IsPlain (t.get? l)) :
    SamePassages t u := by
  constructor
  · intro l
    rcases plain l with same | ⟨now, before⟩
    · rw [same]
    · exact iff_of_false now.notDirectory before.notDirectory
  · intro l target
    rcases plain l with same | ⟨now, before⟩
    · rw [same]
    · exact iff_of_false (now.notLink target) (before.notLink target)

/-- Changing an entry that is no passage to another one changes no passage. -/
theorem SamePassages.of_update {e : Option Entry} (before : IsPlain (t.get? place))
    (after : IsPlain e) (changed : u.get? = Function.update t.get? place e) :
    SamePassages t u := by
  apply SamePassages.of_plain
  intro l
  rw [changed]
  by_cases same : l = place
  · rw [same, Function.update_self]
    exact .inr ⟨after, before⟩
  · rw [Function.update_of_ne same]
    exact .inl rfl

/-- Changing the entry of a name in a directory, where no directory is, leaves a tree closed. -/
theorem Closed.update {around : Location} {name : EntryName} {e : Option Entry} (closed : t.Closed)
    (notDirectory : t.get? (around ++ [name]) ≠ some .directory)
    (holds : e.isSome → t.get? around = some .directory)
    (changed : u.get? = Function.update t.get? (around ++ [name]) e) : u.Closed := by
  intro around' name' present
  have directory : t.get? around' = some .directory := by
    by_cases here : around' ++ [name'] = around ++ [name]
    · rw [changed, here, Function.update_self] at present
      rw [(List.append_inj' here rfl).1]
      exact holds present
    · rw [changed, Function.update_of_ne here] at present
      exact closed around' name' present
  rw [changed, Function.update_of_ne, directory]
  intro same
  exact notDirectory (same ▸ directory)

end Tree

namespace FileSystem

open Renewal.Tree World

variable {w v u : World} {path : Text} {place : Location} {data : Bytes} {mode : Nat}

theorem lastPlace_of_unmoved (unmoved : w.Unmoved v) : lastPlace v path = lastPlace w path := by
  unfold lastPlace
  rw [unmoved.tree, limits_of_setting unmoved.setting, directory_of_setting unmoved.setting]

theorem find_of_unmoved {followLast : Bool} (unmoved : w.Unmoved v) :
    v.find path followLast = w.find path followLast := by
  unfold find
  rw [unmoved.tree, limits_of_setting unmoved.setting, directory_of_setting unmoved.setting]

theorem guardFault_ensures (w : World) (call : FileCall) :
    (guardFault call).Ensures w (fun _ v => w.Unmoved v)
      (fun _ v => w.Unmoved v ∧ w.faults ≠ Faults.none) := by
  unfold guardFault Action.fault?
  rw [Action.ensures_bind, Action.ensures_modifyGet]
  dsimp only
  cases fault : w.faults w.clock call with
  | none => exact ⟨rfl, rfl, rfl⟩
  | some errno =>
    refine ⟨⟨rfl, rfl, rfl⟩, fun none => ?_⟩
    rw [none] at fault
    cases fault

theorem within_guardFault (rel : World → World → Prop) [Action.Upkeep rel]
    (call : FileCall) : Action.Within rel (guardFault call) := by
  refine .bind (.fault? _) fun fault => ?_
  split
  · exact .throw _
  · exact .pure ()

theorem within_checkEncodingName (rel : World → World → Prop) [Action.Upkeep rel]
    (encoding : Text) : Action.Within rel (checkEncodingName encoding) :=
  .bind (.ofExcept _ _) fun _ => .ite (.throw _) (.pure ())

theorem guardPath_ensures (w : World) (path : Text) :
    (guardPath path).Ensures w (fun _ v => v = w ∧ isPath path = true)
      (fun _ v => v = w ∧ isPath path = false) := by
  unfold guardPath
  by_cases written : isPath path = true
  · rw [if_pos written, Action.ensures_pure]
    exact ⟨rfl, written⟩
  · rw [if_neg written, Action.ensures_throw]
    exact ⟨rfl, Bool.eq_false_iff.mpr written⟩

theorem within_guardPath (rel : World → World → Prop) [Action.Upkeep rel] (path : Text) :
    Action.Within rel (guardPath path) :=
  .ite (.pure ()) (.throw _)

/-- A path leads to an entry. -/
structure Leads (w : World) (path : Text) (place : Location) (e : Entry) : Prop where
  written : isPath path = true
  finds : w.find path = .ok ⟨place, some e⟩

/-- Looking an entry up changes nothing and gives what the path leads to. -/
theorem locate_ensures (w : World) (path : Text) :
    (locate path).Ensures w (fun entry v => v = w ∧ Leads w path entry.1 entry.2)
      (fun _ v => v = w ∧ ∀ place e, ¬Leads w path place e) := by
  unfold locate
  rw [Action.ensures_bind]
  refine (guardPath_ensures w path).mono ?_ ?_
  · rintro _ _ ⟨rfl, written⟩
    rw [Action.ensures_bind, Action.ensures_get]
    cases finds : World.find _ path with
    | error errno => exact ⟨rfl, fun place e leads => by simp [leads.finds] at finds⟩
    | ok found =>
      obtain ⟨location, entry⟩ := found
      cases entry with
      | none => exact ⟨rfl, fun place e leads => by simp [leads.finds] at finds⟩
      | some e => exact ⟨rfl, written, finds⟩
  · rintro _ _ ⟨rfl, null⟩
    exact ⟨rfl, fun place e leads => by simp [leads.written] at null⟩

/-- A world that has one more file than an earlier one, at the end of a path. -/
structure Added (w v : World) (path : Text) (place : Location) (data : Bytes) (mode : Nat) :
    Prop where
  free : w.find path false = .ok ⟨place, none⟩
  tree : v.tree.get? = Function.update w.tree.get? place (some (.file data mode))
  setting : v.setting = w.setting

namespace Added

theorem absent (temporary : Added w v path place data mode) : w.tree.get? place = none :=
  (entry_of_find temporary.free).symm

theorem inner (temporary : Added w v path place data mode) : place ≠ [] := by
  rintro rfl
  cases temporary.absent

theorem passages (temporary : Added w v path place data mode) :
    SamePassages w.tree v.tree :=
  .of_update (by rw [temporary.absent]; exact .none) (.file data mode) temporary.tree

theorem entry (temporary : Added w v path place data mode) :
    v.tree.get? place = some (.file data mode) := by
  rw [temporary.tree, Function.update_self]

theorem entry_of_ne (temporary : Added w v path place data mode) {l : Location}
    (other : l ≠ place) : v.tree.get? l = w.tree.get? l := by
  rw [temporary.tree, Function.update_of_ne other]

/-- The path leads to the file. -/
theorem found (temporary : Added w v path place data mode) (followLast : Bool) :
    v.find path followLast = .ok ⟨place, some (.file data mode)⟩ := by
  have unfollowed := find_transfer temporary.setting temporary.passages temporary.free
  rw [temporary.entry] at unfollowed
  exact find_of_unfollowed unfollowed (by simp)

theorem of_unmoved (temporary : Added w v path place data mode) (unmoved : v.Unmoved u) :
    Added w u path place data mode :=
  ⟨temporary.free, by rw [unmoved.tree, temporary.tree],
    unmoved.setting.trans temporary.setting⟩

/-- Writing to the file again. -/
theorem rewritten (temporary : Added w v path place data mode) (data' : Bytes) (mode' : Nat) :
    Added w (v.change (v.tree.set place (.file data' mode'))) path place data' mode' := by
  refine ⟨temporary.free, ?_, temporary.setting⟩
  rw [change_tree, get?_set _ _ temporary.inner, temporary.tree, Function.update_idem]

/-- Where another path leads, as long as it is not to this file. -/
theorem find_back (temporary : Added w v path place data mode) {other : Text} {found : Found}
    (finds : v.find other = .ok found) (elsewhere : found.location ≠ place) :
    w.find other = .ok found := by
  have back := find_transfer temporary.setting.symm temporary.passages.symm finds
  rw [← temporary.entry_of_ne elsewhere, ← entry_of_find finds] at back
  exact back

/-- What a path leads to stays where it is. -/
theorem find_on (temporary : Added w v path place data mode) {other : Text} {followLast : Bool}
    {l : Location} {e : Entry} (finds : w.find other followLast = .ok ⟨l, some e⟩) :
    v.find other followLast = .ok ⟨l, some e⟩ := by
  have onward := find_transfer temporary.setting temporary.passages finds
  have present : w.tree.get? l = some e := (entry_of_find finds).symm
  have elsewhere : l ≠ place := by
    rintro rfl
    rw [temporary.absent] at present
    cases present
  rwa [temporary.entry_of_ne elsewhere, present] at onward

end Added

/-- A tree as before, or with a file in whatever state at a place. -/
def Drafted (w : World) (place : Location) (t : Tree) : Prop :=
  t.get? = w.tree.get? ∨
    ∃ data mode, t.get? = Function.update w.tree.get? place (some (.file data mode))

/-- A file that has been added and is all that has changed in between, too. -/
structure Draft (w v : World) (path : Text) (place : Location) (data : Bytes) (mode : Nat) :
    Prop extends Added w v path place data mode where
  passed : w.Passed v (Drafted w place)

namespace Draft

theorem drafted (draft : Draft w v path place data mode) : Drafted w place v.tree :=
  .inr ⟨data, mode, draft.tree⟩

theorem of_unmoved (draft : Draft w v path place data mode) (unmoved : v.Unmoved u) :
    Draft w u path place data mode :=
  ⟨draft.toAdded.of_unmoved unmoved, draft.passed.trans (.of_unmoved unmoved)⟩

theorem rewritten (draft : Draft w v path place data mode) (data' : Bytes) (mode' : Nat) :
    Draft w (v.change (v.tree.set place (.file data' mode'))) path place data' mode' :=
  ⟨draft.toAdded.rewritten data' mode', draft.passed.change draft.drafted rfl⟩

/-- The file was added to the tree that a world had before. -/
theorem since (unmoved : w.Unmoved v) (draft : Draft v u path place data mode) :
    Draft w u path place data mode := by
  refine ⟨⟨?_, ?_, draft.setting.trans unmoved.setting⟩,
    Passed.trans (.of_unmoved unmoved) (draft.passed.mono fun t drafted => ?_)⟩
  · rw [← find_of_unmoved unmoved]
    exact draft.free
  · rw [draft.tree, unmoved.tree]
  · rwa [Drafted, unmoved.tree] at drafted

end Draft

/-- The file has been written to, in whatever way. -/
def Touched (w v : World) (path : Text) (place : Location) : Prop :=
  ∃ data mode, Draft w v path place data mode

/-- The file stays as it is when a fault comes up. -/
theorem Draft.guardFault_ensures (draft : Draft w v path place data mode) (call : FileCall) :
    (guardFault call).Ensures v (fun _ u => Draft w u path place data mode)
      (fun _ u => Touched w u path place ∧ w.faults ≠ Faults.none) := by
  refine (FileSystem.guardFault_ensures v call).mono (fun _ _ => draft.of_unmoved) ?_
  rintro _ u ⟨unmoved, faulty⟩
  rw [faults_of_setting draft.setting] at faulty
  exact ⟨⟨_, _, draft.of_unmoved unmoved⟩, faulty⟩

/-- Nothing stops a path from being looked at and a file from being made there, if it is free. -/
structure CanCreate (w : World) (path : Text) : Prop where
  roomy : w.Roomy
  written : isPath path = true
  finds : ∃ found, w.find path false = .ok found

theorem CanCreate.of_unmoved (can : CanCreate w path) (unmoved : w.Unmoved v) :
    CanCreate v path :=
  ⟨(roomy_of_setting unmoved.setting).mpr can.roomy, can.written,
    by rw [find_of_unmoved unmoved]; exact can.finds⟩

/-- A file is made where there is nothing, or nothing changes. -/
theorem create_ensures (w : World) (path : Text) :
    (create path).Ensures w
      (fun made v => if made then
          isPath path = true ∧ ∃ place, Draft w v path place [] 0o600
        else w.Unmoved v ∧ ∃ place e, w.find path false = .ok ⟨place, some e⟩)
      (fun _ v => w.Unmoved v ∧ ¬CanCreate w path) := by
  unfold create
  rw [Action.ensures_bind]
  refine (guardPath_ensures w path).mono ?_ ?_
  rotate_left
  · rintro _ _ ⟨rfl, null⟩
    exact ⟨.refl _, fun can => by simp [can.written] at null⟩
  rintro _ v ⟨rfl, written⟩
  rw [Action.ensures_bind, Action.ensures_get]
  cases finds : v.find path false with
  | error errno =>
    refine ⟨.refl v, fun can => ?_⟩
    obtain ⟨found, finds'⟩ := can.finds
    simp [finds] at finds'
  | ok found =>
    obtain ⟨place, entry⟩ := found
    cases entry with
    | some e => exact ⟨.refl v, place, e, rfl⟩
    | none =>
      rw [Action.ensures_bind]
      refine (Action.shortage?_ensures v).mono ?_ fun _ _ => False.elim
      intro shortage u asked
      obtain ⟨unmoved, enough⟩ := asked
      cases shortage with
      | some shortage => exact ⟨unmoved, fun can => by simpa using enough can.roomy⟩
      | none =>
        simp only [put, Action.ensures_bind, Action.ensures_modify, Action.ensures_pure, ↓reduceIte]
        have inner : place ≠ [] := by
          rintro rfl
          cases entry_of_find finds
        refine ⟨written, place, ⟨finds, ?_, unmoved.setting⟩, ?_⟩
        · rw [change_tree, get?_set _ _ inner, unmoved.tree]
        · exact Passed.change (.of_unmoved unmoved) (.inl (by rw [unmoved.tree])) rfl

/-- A file can be made under one of the names drawn from an attempt on. -/
structure CanDraft (w : World) (pathOf : Text → Text) (draws : Nat → Text)
    (attempt bound : Nat) : Prop where
  creates : ∀ k < bound, CanCreate w (pathOf (draws k))
  free : ∃ k < bound, attempt ≤ k ∧ ∃ place, w.find (pathOf (draws k)) false = .ok ⟨place, none⟩

theorem CanDraft.of_unmoved {pathOf : Text → Text} {draws : Nat → Text} {attempt bound : Nat}
    (can : CanDraft w pathOf draws attempt bound) (unmoved : w.Unmoved v) :
    CanDraft v pathOf draws attempt bound :=
  ⟨fun k below => (can.creates k below).of_unmoved unmoved,
    by simpa only [find_of_unmoved unmoved] using can.free⟩

private theorem createFirst_ensures (pathOf : Text → Text) (draws : Nat → Text) (left : Nat) :
    ∀ (attempt : Nat) (w : World), (createFirst pathOf draws attempt left).Ensures w
      (fun path v => (∃ k < attempt + left, path = pathOf (draws k)) ∧
        isPath path = true ∧ ∃ place, Draft w v path place [] 0o600)
      (fun _ v => w.Unmoved v ∧ ¬CanDraft w pathOf draws attempt (attempt + left)) := by
  induction left with
  | zero =>
    refine fun attempt w => ⟨.refl w, fun can => ?_⟩
    obtain ⟨k, below, above, -⟩ := can.free
    omega
  | succ left ih =>
    intro attempt w
    unfold createFirst
    rw [Action.ensures_bind]
    refine (create_ensures w _).mono ?_ fun _ _ ⟨unmoved, stuck⟩ =>
      ⟨unmoved, fun can => stuck (can.creates attempt (by omega))⟩
    intro made v created
    cases made with
    | true => exact ⟨⟨attempt, by omega, rfl⟩, by simpa using created⟩
    | false =>
      simp only [Bool.false_eq_true, ↓reduceIte] at created ⊢
      obtain ⟨unmoved, place, e, taken⟩ := created
      have rest := ih (attempt + 1) v
      rw [show attempt + 1 + left = attempt + (left + 1) by omega] at rest
      refine rest.mono ?_ ?_
      · rintro path u ⟨drawn, written, place, draft⟩
        exact ⟨drawn, written, place, draft.since unmoved⟩
      · rintro _ u ⟨later, stuck⟩
        refine ⟨unmoved.trans later, fun can => stuck ⟨?_, ?_⟩⟩
        · exact fun k below => (can.creates k below).of_unmoved unmoved
        · -- What is taken at this attempt is free at a later one.
          obtain ⟨k, below, above, place', free⟩ := can.free
          have later : k ≠ attempt := by
            rintro rfl
            cases free.symm.trans taken
          exact ⟨k, below, by omega, place', by rw [find_of_unmoved unmoved, free]⟩

/-- A temporary file is made, or nothing changes. -/
theorem createTemporary_ensures (w : World) (pathOf : Text → Text) :
    (createTemporary pathOf).Ensures w
      (fun path v => (∃ k < greatestAttempts, path = pathOf (w.draws w.clock k)) ∧
        isPath path = true ∧ ∃ place, Draft w v path place [] 0o600)
      (fun _ v => w.Unmoved v ∧
        ¬CanDraft w pathOf (w.draws w.clock) 0 greatestAttempts) := by
  unfold createTemporary
  rw [Action.ensures_bind, Action.ensures_get]
  refine (createFirst_ensures pathOf _ _ 0 w).mono ?_ ?_
  · simp
  · simp

theorem flatten_cutInto (sizes : List Nat) (data : Bytes) :
    (cutInto sizes data).flatten = data := by
  induction sizes generalizing data with
  | nil => simp [cutInto]
  | cons size sizes ih => rw [cutInto, List.flatten_cons, ih, List.take_append_drop]

/-- A file that is written piece by piece holds all of the data in the end. -/
theorem overwrite_ensures (draft : Draft w v path place data mode) (data' : Bytes) :
    (overwrite place mode data').Ensures v (fun _ u => Draft w u path place data' mode)
      (fun _ _ => False) := by
  have appends : ∀ (pieces : List Bytes) (written : Bytes) (u : World),
      Draft w u path place written mode →
      (append place mode written pieces).Ensures u
        (fun _ u => Draft w u path place (written ++ pieces.flatten) mode) (fun _ _ => False) := by
    intro pieces
    induction pieces with
    | nil =>
      intro written u added
      rwa [append, Action.ensures_pure, List.flatten_nil, List.append_nil]
    | cons piece rest ih =>
      intro written u added
      rw [append, Action.ensures_bind]
      refine (ih _ _ (added.rewritten (written ++ piece) mode)).mono ?_ fun _ _ => id
      intro _ u added
      rwa [List.flatten_cons, ← List.append_assoc]
  unfold overwrite
  rw [Action.ensures_bind, Action.ensures_get, Action.ensures_bind]
  refine (appends _ _ _ (draft.rewritten [] mode)).mono ?_ fun _ _ => id
  intro _ u added
  rwa [List.nil_append, flatten_cutInto] at added

theorem write_ensures (draft : Draft w v path place data mode) (data' : Bytes) :
    (write path data').Ensures v (fun _ u => Draft w u path place data' mode)
      (fun _ u => Touched w u path place ∧ ¬(w.Roomy ∧ isPath path = true)) := by
  unfold write
  rw [Action.ensures_bind]
  refine (locate_ensures v path).mono ?_ ?_
  · rintro ⟨l, e⟩ _ ⟨rfl, leads⟩
    cases (draft.found true).symm.trans leads.finds
    rw [Action.ensures_bind]
    refine (Action.shortage?_ensures _).mono ?_ fun _ _ => False.elim
    rintro shortage u ⟨later, enough⟩
    have still := draft.of_unmoved later
    cases shortage with
    | none =>
      exact (overwrite_ensures still data').mono (fun _ _ added => added) fun _ _ => False.elim
    | some shortage =>
      have short : ¬w.Roomy := fun roomy => by
        simpa using enough ((roomy_of_setting draft.setting).mpr roomy)
      dsimp only
      rw [Action.ensures_bind]
      exact (overwrite_ensures still _).mono
        (fun _ _ added => ⟨⟨_, _, added⟩, fun able => short able.1⟩) fun _ _ => False.elim
  · rintro _ _ ⟨rfl, stuck⟩
    exact ⟨⟨_, _, draft⟩, fun able => stuck _ _ ⟨able.2, draft.found true⟩⟩

theorem setMode_ensures (draft : Draft w v path place data mode) (mode' : Nat) :
    (setMode path mode').Ensures v (fun _ u => Draft w u path place data mode')
      (fun _ u => Touched w u path place ∧ isPath path = false) := by
  unfold setMode
  rw [Action.ensures_bind]
  refine (locate_ensures v path).mono ?_ ?_
  · rintro ⟨l, e⟩ _ ⟨rfl, leads⟩
    cases (draft.found true).symm.trans leads.finds
    exact draft.rewritten data mode'
  · rintro _ _ ⟨rfl, stuck⟩
    refine ⟨⟨_, _, draft⟩, Bool.eq_false_iff.mpr fun written => ?_⟩
    exact stuck _ _ ⟨written, draft.found true⟩

end FileSystem

end Renewal
