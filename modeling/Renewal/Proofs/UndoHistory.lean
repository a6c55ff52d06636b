import Renewal.Proofs.Reset

/-! # Undoing what runs have done

Whatever sequence of runs has worked on a tree, and wherever they were stopped, every file they have
changed has a saved copy of what it was (`undo_history`), as long as the runs could look for copies
and remove their temporary files. So one more run that only puts saved copies back gives the tree
from which they started. A file that was changed holds the update of a text as it is written, which
can lack the bytes that would close it (`update_left_open`).
-/

namespace Renewal

open Renewal.Tree World FileSystem Backup

variable {start w v : World} {root : Path} {Rewritten : Bytes → Bytes → Prop}
  {saved : Set Location} {names : Location} {name : EntryName}
  {tools : Tools} {options : RunOptions}

/-- What a run in a world makes of some bytes: they are read as a text, and its update is written,
without what would close it. -/
def Rewrites (w : World) (tools : Tools) (options : RunOptions) (original data : Bytes) : Prop :=
  ∃ codec t u encoded, w.codec? options.encoding = some codec ∧ codec.decode original = .ok t ∧
    update tools.rules.rules t tools.engine = .ok u ∧ codec.encode u.text = .ok encoded ∧
    data = encoded.body

namespace Backup

/-- A world from which all saved copies can still be put back. -/
def Recoverable (start : World) (root : Path) (Rewritten : Bytes → Bytes → Prop) (w : World) :
    Prop :=
  ∃ saved, State start root Rewritten saved w

theorem Recoverable.of_unmoved (recoverable : Recoverable start root Rewritten w)
    (unmoved : w.Unmoved v) : Recoverable start root Rewritten v :=
  recoverable.imp fun _ state => state.of_unmoved unmoved

/-- What a run is about when it works on the files below a root: the rewrites that it makes are
among those allowed, and it sees copies and removes temporary files. -/
structure Works (start : World) (root : Path) (Rewritten : Bytes → Bytes → Prop) (tools : Tools)
    (options : RunOptions) (w : World) : Prop where
  bare : Bare start root
  clean : root.Clean
  suffix : options.suffix = defaultSuffix
  sees : w.Sees
  clears : w.Clears
  rewrites : ∀ before after, Rewrites w tools options before after → Rewritten before after

theorem Works.of_setting (works : Works start root Rewritten tools options w)
    (same : v.setting = w.setting) : Works start root Rewritten tools options v := by
  refine ⟨works.bare, works.clean, works.suffix, (sees_of_setting same).mpr works.sees,
    (clears_of_setting same).mpr works.clears, fun before after rewrites => ?_⟩
  rw [Rewrites, codec?_of_setting same] at rewrites
  exact works.rewrites before after rewrites

/-- The path of a file below a root that is no saved copy. -/
structure IsLivePath (root path : Path) : Prop where
  below : ∃ names name, path = root.below (names ++ [name]) ∧
    (∀ part ∈ names ++ [name], IsEntryName part) ∧ ¬suffixBytes <:+ name
  written : isPath path.text = true

end Backup

namespace Run

variable {path : Path}

/-- Saving an update of a file leaves all saved copies to put back. -/
theorem save_update_ensures (works : Works start root Rewritten tools options w)
    (walkable : Walker.Walkable start root) (live : IsLivePath root path)
    (recoverable : Recoverable start root Rewritten w) {u : Updated}
    (updates : Updates tools options w path u) :
    (save path u.text options.suffix options.encoding).Ensures w
      (fun _ v => Recoverable start root Rewritten v)
      (fun _ v => Recoverable start root Rewritten v) := by
  obtain ⟨names, name, rfl, valid, plain⟩ := live.below
  obtain ⟨t, ⟨codec, place, e, known, finds, decoded⟩, updates⟩ := updates
  obtain ⟨saved, state⟩ := recoverable
  rw [works.suffix]
  refine state.save_ensures works.bare.tidy works.sees works.clears works.clean walkable valid plain
    live.written ?_
  intro content mode bytes present writes
  obtain ⟨codec', encoded, known', encodes, rfl⟩ := writes
  obtain rfl := Option.some.inj (known'.symm.trans known)
  have here := find_below (state.linkFree works.bare.tidy.linkFree) works.clean valid finds
  rw [present] at here
  injection here with _ entry
  exact works.rewrites content _ ⟨_, t, u, encoded, known,
    decoded content mode (Option.some.inj entry), updates, encodes, rfl⟩

theorem processFiles_ensures (works : Works start root Rewritten tools options w)
    (walkable : Walker.Walkable start root) {paths : List Path}
    (below : ∀ path ∈ paths, ∃ names name, path = root.below (names ++ [name]) ∧
      (∀ part ∈ names ++ [name], IsEntryName part) ∧ isPath path.text = true)
    (summary : RunSummary) (recoverable : Recoverable start root Rewritten w) :
    (processFiles tools options summary paths).Ensures w
      (fun _ v => Recoverable start root Rewritten v)
      (fun _ v => Recoverable start root Rewritten v) := by
  -- Besides, what the saves go by stays the same.
  refine (processFiles_keeps (fun v => v.setting = w.setting ∧ Recoverable start root Rewritten v)
    (Recoverable start root Rewritten) ?_ (fun _ kept => kept.2) ?_ summary
    ⟨rfl, recoverable⟩).mono (fun _ _ kept => kept.2) fun _ _ kept => kept
  · intro v u kept unmoved
    exact ⟨unmoved.setting.trans kept.1, kept.2.of_unmoved unmoved⟩
  · intro path member keeps v u kept updates
    obtain ⟨setting, recoverable⟩ := kept
    obtain ⟨names, name, rfl, valid, written⟩ := below path member
    have plain : ¬suffixBytes <:+ name := by
      rwa [works.suffix, name_below, endsWith_suffix] at keeps
    refine ((within_save SameSetting _ u.text _ _ v).and (save_update_ensures
      (works.of_setting setting) walkable ⟨⟨names, name, rfl, valid, plain⟩, written⟩ recoverable
      updates)).mono ?_ ?_
    · exact fun _ _ kept => ⟨kept.1.trans setting, kept.2⟩
    · exact fun _ _ kept => kept.2

theorem scan_ensures (works : Works start (Path.ofText options.path) Rewritten tools options w)
    {followLinks : Bool} (native : tools.walker = .native followLinks) (summary : RunSummary)
    (recoverable : Recoverable start (Path.ofText options.path) Rewritten w) :
    (scan tools options summary).Ensures w
      (fun _ v => Recoverable start (Path.ofText options.path) Rewritten v)
      (fun _ v => Recoverable start (Path.ofText options.path) Rewritten v) := by
  obtain ⟨saved, state⟩ := recoverable
  unfold scan
  rw [native, Action.ensures_bind]
  refine (Walker.walkNative_ensures (state.sound works.bare.tidy.sound)
    (state.linkFree works.bare.tidy.linkFree) works.clean followLinks options.name).mono ?_
      fun _ _ ⟨unmoved, _⟩ => ⟨saved, state.of_unmoved unmoved⟩
  rintro files v ⟨unmoved, walked⟩
  rw [Action.ensures_bind]
  refine (processFiles_ensures (works.of_setting unmoved.setting)
    (state.walkable_back walked.walkable) ?_ summary
    ⟨saved, state.of_unmoved unmoved⟩).mono ?_ fun _ _ kept => kept
  · intro path member
    obtain ⟨names, name, rfl, valid, -, leads⟩ := (walked.mem_iff path).mp member
    exact ⟨names, name, rfl, valid, (leadsToFile_iff.mp leads).1⟩
  · intro summary u kept
    exact (quiet_conclude tools options summary u).mono (fun _ _ => kept.of_unmoved)
      fun _ _ => kept.of_unmoved

theorem restoreFirst_ensures
    (works : Works start (Path.ofText options.path) Rewritten tools options w)
    {followLinks : Bool} (native : tools.walker = .native followLinks)
    (recoverable : Recoverable start (Path.ofText options.path) Rewritten w) :
    (restoreFirst tools options).Ensures w
      (fun _ v => ∃ saved, State start (Path.ofText options.path) Rewritten saved v ∧
        (options.reset = true → saved = ∅))
      (fun _ v => ∃ saved, State start (Path.ofText options.path) Rewritten saved v ∧
        ¬(Walker.Walkable start (Path.ofText options.path) ∧ w.faults = Faults.none)) := by
  obtain ⟨saved, state⟩ := recoverable
  unfold restoreFirst
  rw [Action.ensures_ite]
  refine ⟨fun _ => ?_, fun keeps => ⟨saved, state, fun resets => absurd resets keeps⟩⟩
  rw [native, works.suffix, Action.ensures_bind]
  refine (state.reset_ensures works.bare works.clean followLinks).mono ?_ fun _ _ kept => kept
  intro restored v empty
  rw [Action.ensures_bind]
  refine (Action.log_ensures v _ _).mono ?_ fun _ _ => False.elim
  exact fun _ _ unmoved => ⟨∅, empty.of_unmoved unmoved, fun _ => rfl⟩

/-- What a run does once saved copies have been put back. -/
def onward (tools : Tools) (options : RunOptions) (restored : List Path) : Action RunSummary := do
  if options.diff then
    let diffs ←
      Backup.diff (.ofText options.path) tools.walker tools.differ options.suffix tools.sink
    return { restored, diffs, stoppedAfterDiff := true }
  else scan tools options { restored }

theorem run_eq (tools : Tools) (options : RunOptions) :
    run tools options = restoreFirst tools options >>= onward tools options :=
  rfl

theorem quiet_onward (keeps : options.change = false) (restored : List Path) :
    Action.Quiet (onward tools options restored) :=
  .ite ((Backup.quiet_diff _ _ _ _ _).bind fun _ => .pure _) (quiet_scan keeps _)

theorem onward_ensures (works : Works start (Path.ofText options.path) Rewritten tools options w)
    {followLinks : Bool} (native : tools.walker = .native followLinks) (restored : List Path)
    (recoverable : Recoverable start (Path.ofText options.path) Rewritten w) :
    (onward tools options restored).Ensures w
      (fun _ v => Recoverable start (Path.ofText options.path) Rewritten v)
      (fun _ v => Recoverable start (Path.ofText options.path) Rewritten v) := by
  unfold onward
  rw [Action.ensures_ite]
  refine ⟨fun _ => ?_, fun _ => scan_ensures works native _ recoverable⟩
  rw [Action.ensures_bind]
  exact (Backup.quiet_diff _ _ _ _ _ w).mono (fun _ _ => recoverable.of_unmoved)
    fun _ _ => recoverable.of_unmoved

end Run

/-- What a run that is started in one world leaves in another: saved copies that can be put back,
and none if it was only to put them back and nothing was made to fail. -/
def Leaves (start : World) (Rewritten : Bytes → Bytes → Prop) (options : RunOptions) (w v : World) :
    Prop :=
  ∃ saved, State start (Path.ofText options.path) Rewritten saved v ∧
    (options.reset = true → options.change = false → w.faults = Faults.none → saved = ∅)

theorem run_ensures (works : Works start (Path.ofText options.path) Rewritten tools options w)
    {followLinks : Bool} (native : tools.walker = .native followLinks)
    (recoverable : Recoverable start (Path.ofText options.path) Rewritten w) :
    (run tools options).Ensures w (fun _ v => Leaves start Rewritten options w v)
      (fun _ v => Leaves start Rewritten options w v) := by
  rw [Run.run_eq, Action.ensures_bind]
  refine ((Run.restoreFirst_ensures works native recoverable).and
    (Run.within_restoreFirst SameSetting tools options w)).mono ?_ ?_
  · intro restored v restores
    obtain ⟨⟨saved, state, empty⟩, setting⟩ := restores
    cases changes : options.change with
    | false =>
      have unmoved : ∀ u, v.Unmoved u → Leaves start Rewritten options w u := fun u unmoved =>
        ⟨saved, state.of_unmoved unmoved, fun resets _ _ => empty resets⟩
      exact (Run.quiet_onward changes restored v).mono (fun _ => unmoved) fun _ => unmoved
    | true =>
      have leaves : ∀ u, Recoverable start (Path.ofText options.path) Rewritten u →
          Leaves start Rewritten options w u := fun u ⟨saved, state⟩ =>
        ⟨saved, state, fun _ keeps => by simp [changes] at keeps⟩
      exact (Run.onward_ensures (works.of_setting setting) native restored ⟨saved, state⟩).mono
        (fun _ => leaves) fun _ => leaves
  · intro _ v raised
    obtain ⟨⟨saved, state, stuck⟩, -⟩ := raised
    refine ⟨saved, state, fun _ _ faultless => ?_⟩
    by_contra left
    exact stuck ⟨state.walkable (Set.nonempty_iff_ne_empty.mpr left), faultless⟩

/-- Another world with the same tree, seen from the same directory. What is made to fail and all
the rest may differ. -/
structure Resumes (w u : World) : Prop where
  tree : u.tree = w.tree
  directory : u.directory = w.directory
  limits : u.limits = w.limits

/-- A run that lists the directories below a root itself, with the suffix for saved copies that is
used by default. -/
structure WorksOn (root : Text) (tools : Tools) (options : RunOptions) : Prop where
  path : options.path = root
  native : ∃ followLinks, tools.walker = .native followLinks
  suffix : options.suffix = defaultSuffix

/-- A run as it was started: in which world, by what means and with which options. -/
structure Started where
  world : World
  tools : Tools
  options : RunOptions

/-- The worlds that runs on a root can lead to, one after the other, whether they return or not.
Any operation can fail in them, but for looking whether there is a copy already, and for removing
temporary files. -/
inductive History (start : World) (root : Text) : List Started → World → Prop
  | start : History start root [] start
  | run {runs : List Started} {tools : Tools} {options : RunOptions} {w u v : World}
      (before : History start root runs w) (resumes : Resumes w u) (sees : u.Sees)
      (clears : u.Clears) (works : WorksOn root tools options)
      (ends : (run tools options).EndsIn u v) :
      History start root (⟨u, tools, options⟩ :: runs) v

/-- One of the runs rewrites some bytes to others. -/
def RewrittenBy (runs : List Started) (original data : Bytes) : Prop :=
  ∃ r ∈ runs, Rewrites r.world r.tools r.options original data

namespace Backup

theorem State.mono {More : Bytes → Bytes → Prop} (state : State start root Rewritten saved w)
    (more : ∀ original data, Rewritten original data → More original data) :
    State start root More saved w := by
  refine ⟨state.directory, state.limits, state.distinct, fun place member => ?_, state.same,
    state.walkable⟩
  obtain ⟨plain, savable, free, kept⟩ := state.copied place member
  obtain ⟨original, mode, data, before, copy, file, holds⟩ := kept
  exact ⟨plain, savable, free, original, mode, data, before, copy, file,
    holds.imp_right (more _ _)⟩

theorem State.of_resumes (state : State start root Rewritten saved w) (resumes : Resumes w v) :
    State start root Rewritten saved v := by
  refine ⟨resumes.directory.trans state.directory, resumes.limits.trans state.limits, ?_, ?_, ?_,
    state.walkable⟩
  all_goals rw [resumes.tree]
  · exact state.distinct
  · exact state.copied
  · exact state.same

end Backup

theorem run_leaves (original : Original start.tree) {root : Text}
    (recoverable : Recoverable start (Path.ofText root) Rewritten w)
    {u : World} (resumes : Resumes w u) (sees : u.Sees) (clears : u.Clears)
    (works : WorksOn root tools options) (ends : (run tools options).EndsIn u v) :
    Leaves start (fun before after => Rewritten before after ∨
      Rewrites u tools options before after) options u v := by
  obtain ⟨saved, state⟩ := recoverable
  obtain ⟨rfl, ⟨followLinks, native⟩, suffix⟩ := works
  refine (run_ensures ⟨original.bare _, Path.clean_ofText _, suffix, sees, clears,
    fun _ _ => .inr⟩ native ⟨saved, ?_⟩).of_endsIn ends
  exact (state.of_resumes resumes).mono fun _ _ => .inl

/-- Whatever runs have led to a world, saved copies can be put back. -/
theorem History.recoverable (original : Original start.tree) {root : Text}
    {runs : List Started} (history : History start root runs w) :
    Recoverable start (Path.ofText root) (RewrittenBy runs) w := by
  induction history with
  | start => exact ⟨∅, .initial original.sound⟩
  | run before resumes sees clears works ends ih =>
    obtain ⟨saved, state, -⟩ := run_leaves original ih resumes sees clears works ends
    obtain ⟨rfl, -, -⟩ := works
    refine ⟨saved, state.mono ?_⟩
    rintro before after (⟨r, member, rewrites⟩ | rewrites)
    · exact ⟨r, List.mem_cons_of_mem _ member, rewrites⟩
    · exact ⟨_, List.mem_cons_self, rewrites⟩

/-- What has become of a file: it is as it was, or it has a saved copy of what it was, and holds
that itself or what it was rewritten to. -/
inductive FileNow (start w : World) (Rewritten : Bytes → Bytes → Prop) (place : Location)
    (content : Bytes) (mode : Nat) : Prop
  | asBefore (file : w.tree.get? place = some (.file content mode))
      (copy : w.tree.get? (placeFor place) = start.tree.get? (placeFor place))
  | saved {data : Bytes} (free : start.tree.get? (placeFor place) = none)
      (copy : w.tree.get? (placeFor place) = some (.file content mode))
      (file : w.tree.get? place = some (.file data mode))
      (holds : data = content ∨ Rewritten content data)

theorem Backup.State.fileNow (state : State start root Rewritten saved w)
    (original : Original start.tree) {place : Location} {content : Bytes} {mode : Nat}
    (file : start.tree.get? place = some (.file content mode)) :
    FileNow start w Rewritten place content mode := by
  by_cases member : place ∈ saved
  · obtain ⟨-, -, free, content', mode', data, before, copy, now, holds⟩ :=
      state.copied place member
    obtain ⟨rfl, rfl⟩ : content = content' ∧ mode = mode' := by simpa [file] using before
    exact .saved free copy now holds
  · have plain : ¬IsSavedPlace place := fun isSaved => by
      cases original.unsaved place _ isSaved file
    have inner : place ≠ [] := by
      rintro rfl
      cases file
    refine .asBefore ?_ ?_
    · rw [state.same place member fun other _ same => plain (same ▸ isSavedPlace_placeFor other),
        file]
    · refine state.same _ (fun isSaved => state.apart isSaved place rfl)
        fun other isSaved same => member ?_
      rwa [placeFor_injective inner (state.inner isSaved) same]

/-- In every world that runs lead to, each file is as it was or has a saved copy from which it can
be restored, and nothing else has changed. One more run that puts saved copies back, with nothing
made to fail, gives the tree from which they started. -/
theorem undo_history (start : World) (original : Original start.tree) (root : Text)
    {runs : List Started} {w : World} (history : History start root runs w) :
    (∀ place content mode, start.tree.get? place = some (.file content mode) →
      FileNow start w (RewrittenBy runs) place content mode) ∧
    (∀ place, (∀ content mode, start.tree.get? place ≠ some (.file content mode)) →
      (∀ file content mode, start.tree.get? file = some (.file content mode) →
        place ≠ placeFor file) →
      w.tree.get? place = start.tree.get? place) ∧
    ∀ tools options u v, Resumes w u → WorksOn root tools options → options.reset = true →
      options.change = false → u.faults = Faults.none → (run tools options).EndsIn u v →
      v.tree.get? = start.tree.get? := by
  obtain ⟨saved, state⟩ := history.recoverable original
  refine ⟨fun place content mode file => state.fileNow original file, ?_, ?_⟩
  · intro place noFile noCopy
    refine state.same place (fun member => ?_) fun other member => ?_
    · obtain ⟨content, mode, -, before, -⟩ := (state.copied place member).kept
      exact noFile content mode before
    · obtain ⟨content, mode, -, before, -⟩ := (state.copied other member).kept
      exact noCopy other content mode before
  · intro tools options u v resumes works resets keeps faultless ends
    obtain ⟨saved, state, empty⟩ := run_leaves original ⟨saved, state⟩ resumes
      (sees_of_faultless faultless) (clears_of_faultless faultless) works ends
    rw [empty resets keeps faultless] at state
    exact state.unchanged

/-- A directory with a file `a` in which a command is out of date. -/
def lone : World where
  tree := ⟨[([[97]], .file [110, 115, 95, 99, 112] 0o640)]⟩

/-- A rule for that command. -/
def brief : Tools where
  rules := { rules := [{ pattern := "ns_cp", replacement := "file copy" }] }
  walker := .native true
  differ := .prepared []
  sink := .collect

/-- A run that updates all files. -/
def updating : RunOptions where
  path := "/"
  name := "*"
  change := true

theorem undo_history_lone : ∃ w, (run brief updating).EndsIn lone w ∧
    w.tree.get? [[97]] = some (.file [102, 105, 108, 101, 32, 99, 111, 112, 121] 0o640) ∧
    ∀ v, (run brief { path := "/", reset := true }).EndsIn { w with faults := Faults.none } v →
      v.tree.get? = lone.tree.get? := by
  have original : Original lone.tree := by
    refine original_of_entries (by decide) (by unfold Distinct; decide) ?_ (by simp [lone]) ?_
    · intro p member name inside
      obtain rfl := List.mem_singleton.mp member
      obtain rfl := List.mem_singleton.mp inside
      exact ⟨⟨by decide, by decide, by decide, by decide, by decide⟩, by decide⟩
    · rintro p member ⟨around, name, same⟩
      obtain rfl := List.mem_singleton.mp member
      have suffix : suffixBytes.length = 9 := by decide
      have long := congrArg (fun place => (place.getLast?.getD []).length) same
      simp [suffix] at long
  have rewritten : ((run brief updating).returned? lone).map (fun p => p.2.tree.get? [[97]]) =
      some (some (.file [102, 105, 108, 101, 32, 99, 111, 112, 121] 0o640)) := by
    decide +kernel
  obtain ⟨p, returns, live⟩ := Option.map_eq_some_iff.mp rewritten
  have ends : (run brief updating).EndsIn lone p.2 := .inl ⟨p.1, Action.run_of_returned? returns⟩
  have history : History lone "/" [⟨lone, brief, updating⟩] p.2 :=
    .run .start ⟨rfl, rfl, rfl⟩ (fun _ _ => rfl) (fun _ _ => rfl) ⟨rfl, ⟨true, rfl⟩, rfl⟩ ends
  refine ⟨p.2, ends, live, fun v again => ?_⟩
  exact (undo_history lone original "/" history).2.2 brief { path := "/", reset := true }
    { p.2 with faults := Faults.none } v ⟨rfl, rfl, rfl⟩ ⟨rfl, ⟨true, rfl⟩, rfl⟩ rfl rfl rfl again

/-- A command that is out of date and a yen sign, in ISO-2022-JP. -/
def shiftedBytes : Bytes :=
  [110, 115, 95, 99, 112, 32, 0x1B, 0x28, 0x4A, 0x5C, 0x1B, 0x28, 0x42]

/-- A directory with a file `a` that holds them. -/
def loneShifted : World where
  tree := ⟨[([[97]], .file shiftedBytes 0o640)]⟩

/-- A run that updates the file in this encoding. -/
def updatingShifted : RunOptions :=
  { updating with encoding := "iso2022_jp" }

/-- The run makes a copy, and leaves bytes that are neither the old content nor all of the encoded
update. -/
theorem run_loneShifted : ∃ codec t u encoded summary v,
    loneShifted.codec? "iso2022_jp" = some codec ∧ codec.decode shiftedBytes = .ok t ∧
    update brief.rules.rules t brief.engine = .ok u ∧ codec.encode u.text = .ok encoded ∧
    (run brief updatingShifted).run loneShifted = .ok summary v ∧ summary.filesChanged = 1 ∧
    v.tree.get? [[97] ++ suffixBytes] = some (.file shiftedBytes 0o640) ∧
    v.tree.get? [[97]] = some (.file encoded.body 0o640) ∧
    encoded.body ≠ shiftedBytes ∧ encoded.body ≠ encoded.whole := by
  have rewritten : ((run brief updatingShifted).returned? loneShifted).map (fun p =>
      (p.1.filesChanged, p.2.tree.get? [[97] ++ suffixBytes], p.2.tree.get? [[97]])) =
      some (1, some (.file shiftedBytes 0o640), some (.file
        [102, 105, 108, 101, 32, 99, 111, 112, 121, 32, 0x1B, 0x28, 0x4A, 0x5C] 0o640)) := by
    decide +kernel
  have updates : (update brief.rules.rules "ns_cp ¥" brief.engine).toOption.map Updated.text =
      some "file copy ¥" := by
    decide +kernel
  have codec := codec?_iso2022Jp (w := loneShifted) rfl
  generalize loneShifted = w at rewritten codec ⊢
  obtain ⟨p, returns, left⟩ := Option.map_eq_some_iff.mp rewritten
  obtain ⟨once, places⟩ := Prod.mk.inj left
  obtain ⟨copy, live⟩ := Prod.mk.inj places
  cases updated : update brief.rules.rules "ns_cp ¥" brief.engine with
  | error e =>
    rw [updated] at updates
    cases updates
  | ok u =>
    rw [updated] at updates
    refine ⟨_, "ns_cp ¥", u, ⟨[102, 105, 108, 101, 32, 99, 111, 112, 121, 32, 0x1B, 0x28, 0x4A,
      0x5C], [0x1B, 0x28, 0x42]⟩, p.1, p.2, codec, by decide +kernel, updated, ?_,
      Action.run_of_returned? returns, once, copy, live, by decide, by decide⟩
    rw [show u.text = _ from Option.some.inj updates]
    decide +kernel

/-- After a run the file can hold bytes that are neither the old content nor an encoded update. -/
theorem update_left_open : ∃ codec t u encoded w,
    loneShifted.codec? "iso2022_jp" = some codec ∧ codec.decode shiftedBytes = .ok t ∧
    update brief.rules.rules t brief.engine = .ok u ∧ codec.encode u.text = .ok encoded ∧
    (run brief updatingShifted).EndsIn loneShifted w ∧
    w.tree.get? [[97]] = some (.file encoded.body 0o640) ∧
    encoded.body ≠ shiftedBytes ∧ encoded.body ≠ encoded.whole := by
  obtain ⟨codec, t, u, encoded, summary, w, known, decodes, updates, encodes, returns, -, -, live,
    changed, cut⟩ := run_loneShifted
  exact ⟨codec, t, u, encoded, w, known, decodes, updates, encodes, .inl ⟨summary, returns⟩, live,
    changed, cut⟩

end Renewal
