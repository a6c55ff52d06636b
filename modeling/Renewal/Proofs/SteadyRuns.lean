import Renewal.Proofs.KeptCopies
import Renewal.Proofs.TwinRuns
import Renewal.Proofs.UndoHistory

/-! # Runs that start by putting saved copies back

Such a run first undoes what runs before it have done, and leaves copies only of what it changes
itself. So another one on the tree that it leaves starts its work on the same tree, and does the
same (`run_again`).
-/

namespace Renewal

open Renewal.Tree World FileSystem Backup

variable {w r v u : World} {root : Path} {tools : Tools} {options : RunOptions}
  {followLinks : Bool}

/-- A reset that has returned leaves a world to start from. -/
theorem Backup.PutBack.bare (back : PutBack (copied w root) w r) (tidy : Tidy w.tree)
    {files : List Path} (walked : Walker.Walked w root (('*' : CodePoint) :: defaultSuffix) files) :
    Bare r root := by
  refine ⟨back.tidy tidy, fun names name => back.not_hasCopy tidy, ?_⟩
  intro names name e present plain
  rw [back.placeOf] at present
  have before : w.tree.get? (w.placeOf root ++ (names ++ [name ++ suffixBytes])) = some e := by
    rcases back.entry_cases (w.placeOf root ++ (names ++ [name ++ suffixBytes])) with
      member | ⟨other, member, here, gone⟩ | same
    · exact absurd (placeFor_below _ names name).symm (tidy.apart (back.each _ member).copy _)
    · rw [gone] at present
      cases present
    · rwa [same] at present
  rw [← List.append_assoc] at before
  obtain ⟨found, finds⟩ := walked.asks names (name ++ suffixBytes) (by rw [before]; rfl)
    (by rwa [before, Ne, Option.some_inj]) (globMatches_suffix.mpr (List.suffix_append _ _))
  exact ⟨_, find_transfer back.setting (back.passages tidy.linkFree) finds⟩

namespace Run

theorem restoreFirst_puts_back (tidy : Tidy w.tree) (native : tools.walker = .native followLinks)
    (suffix : options.suffix = defaultSuffix) (resets : options.reset = true)
    {restored : List Path} (returns : (restoreFirst tools options).run w = .ok restored r) :
    PutBack (copied w (Path.ofText options.path)) w r ∧ ∃ files,
      Walker.Walked w (Path.ofText options.path) (('*' : CodePoint) :: defaultSuffix) files := by
  rw [restoreFirst, if_pos resets, native, suffix] at returns
  obtain ⟨paths, x, puts, rest⟩ := Action.run_bind_eq_ok.mp returns
  obtain ⟨back, files, walked, -⟩ :=
    (reset_puts_back tidy.neat (Path.clean_ofText _) followLinks).of_ok puts
  obtain ⟨_, y, tells, done⟩ := Action.run_bind_eq_ok.mp rest
  cases done
  exact ⟨back.of_unmoved ((Action.log_ensures x _ _).of_ok tells), files, walked⟩

/-- What a run does in one of two twins, once saved copies have been put back, it does in the other.
-/
theorem onward_follows {a b : World} (native : tools.walker = .native followLinks)
    (suffix : options.suffix = defaultSuffix) (bare : Bare w (Path.ofText options.path))
    (twin : Twin a b w v) (distinct : v.tree.Distinct) {restored : List Path}
    (restoredToo : List Path) {summary : RunSummary} {w' : World}
    (returns : (onward tools options restored).run w = .ok summary w') :
    ∃ again v', (onward tools options restoredToo).run v = .ok again v' ∧
      summary.SameCounts again ∧ Twin a b w' v' := by
  have sound := bare.tidy.sound
  have free := bare.tidy.linkFree
  have clean := Path.clean_ofText options.path
  unfold onward at returns ⊢
  by_cases diff : options.diff = true
  · rw [if_pos diff] at returns ⊢
    obtain ⟨diffs, x, compares, done⟩ := Action.run_bind_eq_ok.mp returns
    cases done
    rw [Backup.diff, native, suffix] at compares ⊢
    obtain ⟨pairs, y, searches, compares⟩ := Action.run_bind_eq_ok.mp compares
    obtain ⟨-, files, walked, same, all⟩ :=
      (findAll_ensures sound free clean followLinks defaultSuffix).of_ok searches
    -- There is nothing to compare.
    have none : pairs = [] := by
      apply List.eq_nil_iff_forall_not_mem.mpr
      intro pair member
      rw [same, mem_filterMap_pairOf? bare.tidy.neat clean walked all] at member
      obtain ⟨names, name, -, copy⟩ := member
      exact bare.none names name copy
    subst none
    cases compares
    obtain ⟨v', searches', twin⟩ :=
      findAll_follows followLinks sound free clean twin distinct searches
    refine ⟨_, v', Action.run_bind_eq_ok.mpr ⟨[], v', ?_, rfl⟩, ⟨rfl, rfl, rfl, rfl, rfl⟩, twin⟩
    exact Action.run_bind_eq_ok.mpr ⟨[], v', searches', rfl⟩
  · rw [if_neg diff] at returns ⊢
    have same : RunSummary.SameCounts { restored } { restored := restoredToo } :=
      ⟨rfl, rfl, rfl, rfl, rfl⟩
    exact scan_follows native suffix same sound free twin distinct returns

end Run

/-- Putting back what a run has left makes a twin of the world that it worked on. -/
theorem Backup.State.twin {start before : World} {Rewritten : Bytes → Bytes → Prop}
    {saved : Set Location} (state : State start root Rewritten saved u) (bare : Bare start root)
    (restored : State start root Rewritten ∅ r) (setting : r.setting = u.setting)
    (codecs : r.codecs = start.codecs) (calm : u.Calm) (faultless : start.faults = Faults.none)
    (lettered : ∀ n, ∀ k < greatestAttempts, Lettered (start.draws n k))
    (quiet : before.SameOutput start) (quietToo : u.SameOutput r) : Twin before u start r := by
  have told : ∀ {x y : World}, x.SameOutput y → HasTold x y [] [] := fun quiet =>
    ⟨by rw [quiet.emitted, List.append_nil], by rw [quiet.printed, List.append_nil]⟩
  refine ⟨restored.unchanged, restored.directory, restored.limits, codecs,
    ⟨[], [], told quiet, told quietToo⟩, bare.tidy.sound.closed, faultless, lettered, ?_⟩
  refine calm.of_names setting fun around name present => .inl ?_
  rw [restored.unchanged] at present
  rcases state.entry_cases (around ++ [name]) with member | ⟨other, member, here⟩ | same
  · obtain ⟨content, mode, data, -, -, now, -⟩ := (state.copied _ member).kept
    rw [now]
    rfl
  · rw [here, (state.copied other member).free] at present
    cases present
  · rwa [same]

/-- A run that first puts saved copies back can be repeated: on the tree that it has left, another
one returns, leaves each entry as it is, tells the same and counts the same. -/
theorem run_again (tidy : Tidy w.tree) (native : tools.walker = .native followLinks)
    (suffix : options.suffix = defaultSuffix) (resets : options.reset = true) (calm : w.Calm)
    {summary : RunSummary} (returns : (run tools options).run w = .ok summary v)
    (resumes : Resumes v u) (codecs : u.codecs = v.codecs) (calmToo : u.Calm) :
    ∃ again v' lines text, (run tools options).run u = .ok again v' ∧
      v'.tree.get? = v.tree.get? ∧ HasTold w v lines text ∧ HasTold u v' lines text ∧
      summary.SameCounts again := by
  have clean := Path.clean_ofText options.path
  have kept : v.setting = w.setting :=
    (within_run SameSetting Unmoved.setting tools options w).of_ok returns
  rw [Run.run_eq] at returns ⊢
  obtain ⟨restored, r, restores, works⟩ := Action.run_bind_eq_ok.mp returns
  obtain ⟨back, files, walked⟩ := Run.restoreFirst_puts_back tidy native suffix resets restores
  have bare := back.bare tidy walked
  have walkable : Walker.Walkable r (Path.ofText options.path) :=
    walked.walkable.transfer (directory_of_setting back.setting) (limits_of_setting back.setting)
      (back.passages tidy.linkFree)
  have sameCodecs : u.codecs = r.codecs := by
    rw [codecs, codecs_of_setting kept, codecs_of_setting back.setting]
  have faultless : r.faults = Faults.none := by rw [faults_of_setting back.setting, calm.faultless]
  have onRules : ∀ x : World, x.codecs = r.codecs → x.faults = Faults.none →
      Works r (Path.ofText options.path) (Rewrites r tools options) tools options x := by
    intro x same faultless
    refine ⟨bare, clean, suffix, sees_of_faultless faultless, clears_of_faultless faultless,
      fun before after rewrites => ?_⟩
    rw [Rewrites, codec?_congr same] at rewrites
    exact rewrites
  have onRulesToo := onRules u sameCodecs calmToo.faultless
  obtain ⟨saved, state⟩ := (Run.onward_ensures (onRules r rfl faultless) native restored
    ⟨∅, .initial bare.tidy.sound⟩).of_ok works
  have state := state.of_resumes resumes
  have quiet := (Run.within_restoreFirst SameOutput tools options w).of_ok restores
  cases restoresToo : (Run.restoreFirst tools options).run u with
  | error failure x =>
    obtain ⟨-, -, stuck⟩ :=
      (Run.restoreFirst_ensures onRulesToo native ⟨saved, state⟩).of_error restoresToo
    exact absurd ⟨walkable, calmToo.faultless⟩ stuck
  | ok restoredToo x =>
    obtain ⟨left, restoredState, empty⟩ :=
      (Run.restoreFirst_ensures onRulesToo native ⟨saved, state⟩).of_ok restoresToo
    rw [empty resets] at restoredState
    have quietToo := (Run.within_restoreFirst SameOutput tools options u).of_ok restoresToo
    obtain ⟨backToo, -⟩ := Run.restoreFirst_puts_back (state.tidy bare.tidy) native suffix resets
      restoresToo
    have twin : Twin w u r x := by
      refine state.twin bare restoredState backToo.setting ?_ calmToo faultless ?_ quiet quietToo
      · rw [codecs_of_setting backToo.setting, sameCodecs]
      · rw [show r.draws = w.draws from congrArg Setting.draws back.setting]
        exact calm.lettered
    obtain ⟨again, v', worksToo, counts, twin⟩ :=
      Run.onward_follows native suffix bare twin backToo.distinct restoredToo works
    obtain ⟨lines, text, told, toldToo⟩ := twin.output
    exact ⟨again, v', lines, text,
      Action.run_bind_eq_ok.mpr ⟨restoredToo, x, restoresToo, worksToo⟩, twin.tree, told, toldToo,
      counts⟩

/-- The world of `lone`, with the same letters for every temporary file. -/
def loneDrawn : World :=
  { lone with draws := fun _ _ => "XXXXXXXX" }

/-- The world after a run on `loneDrawn` that updates all files. -/
def loneUpdated : World where
  tree := ⟨[([[97]], .file [102, 105, 108, 101, 32, 99, 111, 112, 121] 0o640),
    ([[97] ++ suffixBytes], .file [110, 115, 95, 99, 112] 0o640)]⟩
  draws := fun _ _ => "XXXXXXXX"

/-- Whether a run that puts saved copies back and updates all files leaves the tree of
`loneUpdated`. -/
def updatesLone (w : World) : Bool :=
  match (run brief { updating with reset := true }).run w with
  | .ok summary v => summary.totalChanges == 1 && v.tree.entries == loneUpdated.tree.entries &&
    v.directory == [] && v.limits.links == 40 && v.limits.name == 255 && v.limits.path == 4095
  | .error _ _ => false

/-- An update of `a` undone and made once more. -/
theorem run_again_lone : ∃ summary v again v' lines text,
    (run brief { updating with reset := true }).run loneDrawn = .ok summary v ∧
    Resumes v loneUpdated ∧ (run brief { updating with reset := true }).run loneUpdated =
      .ok again v' ∧ v'.tree.get? = v.tree.get? ∧ HasTold loneDrawn v lines text ∧
    HasTold loneUpdated v' lines text ∧ again.totalChanges = 1 := by
  have updates : updatesLone loneDrawn = true := by decide +kernel
  have tidy : Tidy loneDrawn.tree := by
    refine ⟨sound_lone.1, sound_lone.2, fun place present name member => ?_,
      fun around name data mode file => ?_⟩
    · obtain ⟨e, entry⟩ := Option.isSome_iff_exists.mp present
      have inside := mem_entries_of_get? (List.ne_nil_of_mem member) entry
      obtain rfl : place = [[97]] := congrArg Prod.fst (List.mem_singleton.mp inside)
      obtain rfl := List.mem_singleton.mp member
      decide
    · have inside := mem_entries_of_get? (by simp) file
      have same := congrArg (fun p => (p.1.getLast?.getD []).length) (List.mem_singleton.mp inside)
      have suffix : suffixBytes.length = 9 := by decide
      simp [suffix] at same
  have calm : loneDrawn.Calm :=
    calm_of_drawn rfl (fun _ => rfl) (fun _ _ => rfl) (by decide +kernel)
  have calmToo : loneUpdated.Calm :=
    calm_of_drawn rfl (fun _ => rfl) (fun _ _ => rfl) (by decide +kernel)
  have setting : loneUpdated.directory = [] ∧ loneUpdated.limits = {} := ⟨rfl, rfl⟩
  have codecs : loneUpdated.codecs = loneDrawn.codecs := rfl
  unfold updatesLone at updates
  generalize loneDrawn = w at updates tidy calm codecs ⊢
  generalize loneUpdated = u at updates calmToo setting codecs ⊢
  cases returns : (run brief { updating with reset := true }).run w with
  | error failure v => simp [returns] at updates
  | ok summary v =>
    simp only [returns, Bool.and_eq_true, beq_iff_eq] at updates
    obtain ⟨⟨⟨⟨⟨once, entries⟩, directory⟩, links⟩, name⟩, path⟩ := updates
    have resumes : Resumes v u := by
      refine ⟨congrArg Tree.mk entries.symm, setting.1.trans directory.symm, ?_⟩
      rw [setting.2, show v.limits = ⟨v.limits.links, v.limits.name, v.limits.path⟩ from rfl, links,
        name, path]
    have kept : v.setting = w.setting :=
      (within_run SameSetting Unmoved.setting _ _ w).of_ok returns
    obtain ⟨again, v', lines, text, returnsToo, same, told, toldToo, counts⟩ :=
      run_again tidy rfl rfl rfl calm returns resumes (codecs.trans (codecs_of_setting kept).symm)
        calmToo
    exact ⟨summary, v, again, v', lines, text, rfl, resumes, returnsToo, same, told, toldToo,
      counts.totalChanges.trans once⟩

end Renewal
