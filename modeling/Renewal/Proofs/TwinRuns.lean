import Renewal.Proofs.Footprint
import Renewal.Proofs.SaveProgress
import Renewal.Proofs.Walk

/-! # Runs in worlds that are alike

Two worlds are twins if their trees hold the same, their paths start from the same directory, and
the same lines have been emitted since some time. The order in which a tree lists its entries, the
letters drawn for temporary files and the log may differ. What a run does in one of two twins it
does in the other, and twins they remain (`Run.scan_follows`).
-/

namespace Renewal

open Renewal.Tree World FileSystem

namespace Action

variable {α β : Type} {rel : World → World → Prop}

/-- Outcomes that are the same up to a relation between the worlds they are left with. -/
inductive Agree (rel : World → World → Prop) :
    EStateM.Result Failure World α → EStateM.Result Failure World α → Prop
  | ok {w v : World} (value : α) (alike : rel w v) : Agree rel (.ok value w) (.ok value v)
  | error {w v : World} (failure : Failure) (alike : rel w v) :
      Agree rel (.error failure w) (.error failure v)

/-- An action that has the same outcome in related worlds. -/
def Mirrors (rel : World → World → Prop) (action : Action α) : Prop :=
  ∀ w v, rel w v → Agree rel (action.run w) (action.run v)

namespace Mirrors

theorem pure (value : α) : Mirrors rel (pure value) :=
  fun _ _ alike => .ok value alike

theorem throw (failure : Failure) : Mirrors rel (throw failure : Action α) :=
  fun _ _ alike => .error failure alike

theorem bind {action : Action α} {next : α → Action β} (first : Mirrors rel action)
    (second : ∀ value, Mirrors rel (next value)) : Mirrors rel (action >>= next) := by
  intro w v alike
  rw [EStateM.run_bind, EStateM.run_bind]
  have agree := first w v alike
  generalize action.run w = one at agree ⊢
  generalize action.run v = other at agree ⊢
  cases agree with
  | ok value alike => exact second value _ _ alike
  | error failure alike => exact .error failure alike

theorem tryCatch {action : Action α} {handler : Failure → Action α} (first : Mirrors rel action)
    (second : ∀ failure, Mirrors rel (handler failure)) :
    Mirrors rel (tryCatch action handler) := by
  intro w v alike
  have agree := first w v alike
  cases one : action.run w with
  | ok value w' =>
    rw [one] at agree
    generalize other : action.run v = result at agree
    cases agree with
    | ok _ alike =>
      rw [run_tryCatch_ok one, run_tryCatch_ok other]
      exact .ok value alike
  | error failure w' =>
    rw [one] at agree
    generalize other : action.run v = result at agree
    cases agree with
    | error _ alike =>
      rw [run_tryCatch_error one, run_tryCatch_error other]
      exact second failure _ _ alike

/-- What an action reads of a world may be anything that related worlds share. -/
theorem get {next : World → Action α} (same : ∀ w v, rel w v → next v = next w)
    (each : ∀ w, Mirrors rel (next w)) : Mirrors rel (get >>= next) := by
  intro w v alike
  rw [EStateM.run_bind, EStateM.run_bind, EStateM.run_get, EStateM.run_get]
  dsimp only
  rw [same w v alike]
  exact each w w v alike

theorem modify {change : World → World} (keeps : ∀ w v, rel w v → rel (change w) (change v)) :
    Mirrors rel (modify change : Action Unit) :=
  fun w v alike => .ok () (keeps w v alike)

theorem ofExcept {ε : Type} (wrap : ε → Failure) (result : Except ε α) :
    Mirrors rel (ofExcept wrap result) := by
  cases result with
  | ok value => exact .pure value
  | error e => exact .throw (wrap e)

theorem forM {items : List β} {body : β → Action Unit} (each : ∀ item, Mirrors rel (body item)) :
    Mirrors rel (items.forM body) := by
  induction items with
  | nil => exact .pure ()
  | cons item rest ih => exact (each item).bind fun _ => ih

end Mirrors

/-- An action that returns in the second of two related worlds if it does so in the first, and then
with the same value. -/
def Follows (rel : World → World → Prop) (action : Action α) : Prop :=
  ∀ w v, rel w v → ∀ value w', action.run w = .ok value w' →
    ∃ v', action.run v = .ok value v' ∧ rel w' v'

namespace Follows

theorem of_mirrors {action : Action α} (mirrors : Mirrors rel action) : Follows rel action := by
  intro w v alike value w' returns
  have agree := mirrors w v alike
  rw [returns] at agree
  generalize action.run v = other at agree ⊢
  cases agree with
  | ok _ alike => exact ⟨_, rfl, alike⟩

theorem bind {action : Action α} {next : α → Action β} (first : Follows rel action)
    (second : ∀ value, Follows rel (next value)) : Follows rel (action >>= next) := by
  intro w v alike value w' returns
  obtain ⟨middle, u, one, two⟩ := run_bind_eq_ok.mp returns
  obtain ⟨u', one', alike⟩ := first w v alike middle u one
  obtain ⟨v', two', alike⟩ := second middle u u' alike value w' two
  exact ⟨v', run_bind_eq_ok.mpr ⟨middle, u', one', two'⟩, alike⟩

theorem get {next : World → Action α} (same : ∀ w v, rel w v → next v = next w)
    (each : ∀ w, Follows rel (next w)) : Follows rel (get >>= next) := by
  intro w v alike value w' returns
  obtain ⟨v', returns', later⟩ := each w w v alike value w' returns
  rw [← same w v alike] at returns'
  exact ⟨v', returns', later⟩

end Follows

end Action

namespace World

variable {a b w v w' v' : World}

/-- Nothing has been emitted or printed in between. -/
structure SameOutput (w v : World) : Prop where
  emitted : v.emitted = w.emitted
  printed : v.printed = w.printed

instance : Action.Reworking SameOutput where
  refl _ := ⟨rfl, rfl⟩
  trans first second :=
    ⟨second.emitted.trans first.emitted, second.printed.trans first.printed⟩
  tick _ _ := ⟨rfl, rfl⟩
  note _ _ := ⟨rfl, rfl⟩
  call _ _ _ := ⟨rfl, rfl⟩
  set _ _ _ := ⟨rfl, rfl⟩
  erase _ _ := ⟨rfl, rfl⟩
  move _ _ _ := ⟨rfl, rfl⟩

/-- What a world has told since another. -/
structure HasTold (start w : World) (lines : List Text) (text : Text) : Prop where
  emitted : w.emitted = start.emitted ++ lines
  printed : w.printed = start.printed ++ text

theorem HasTold.of_sameOutput {start : World} {lines : List Text} {text : Text}
    (told : HasTold start w lines text) (quiet : w.SameOutput v) : HasTold start v lines text :=
  ⟨quiet.emitted.trans told.emitted, quiet.printed.trans told.printed⟩

/-- Since `a` as much has been told as since `b`. -/
def TellAlike (a b w v : World) : Prop :=
  ∃ lines text, HasTold a w lines text ∧ HasTold b v lines text

theorem TellAlike.of_sameOutput (alike : TellAlike a b w v) (quiet : w.SameOutput w')
    (quiet' : v.SameOutput v') : TellAlike a b w' v' := by
  obtain ⟨lines, text, told, told'⟩ := alike
  exact ⟨lines, text, told.of_sameOutput quiet, told'.of_sameOutput quiet'⟩

/-- A world in which no operation fails, and a calm one that is like it. Since `a` and `b` they have
told the same. -/
structure Twin (a b w v : World) : Prop where
  tree : v.tree.get? = w.tree.get?
  directory : v.directory = w.directory
  limits : v.limits = w.limits
  codecs : v.codecs = w.codecs
  output : TellAlike a b w v
  closed : w.tree.Closed
  faultless : w.faults = Faults.none
  lettered : ∀ n, ∀ k < greatestAttempts, Lettered (w.draws n k)
  calm : v.Calm

namespace Twin

theorem find (twin : Twin a b w v) (path : Text) (followLast : Bool) :
    v.find path followLast = w.find path followLast :=
  find_congr twin.tree twin.directory twin.limits

theorem lastPlace (twin : Twin a b w v) (path : Text) :
    FileSystem.lastPlace v path = FileSystem.lastPlace w path :=
  lastPlace_congr twin.tree twin.directory twin.limits

theorem closed' (twin : Twin a b w v) : v.tree.Closed := by
  intro around name
  rw [twin.tree]
  exact twin.closed around name

/-- Later worlds are twins if their trees hold the same and they have told the same. -/
theorem next (twin : Twin a b w v) (setting : w'.setting = w.setting)
    (setting' : v'.setting = v.setting)
    (tree : v'.tree.get? = w'.tree.get?) (output : TellAlike a b w' v') (closed : w'.tree.Closed)
    (calm : v'.Calm) : Twin a b w' v' := by
  refine ⟨tree, ?_, ?_, ?_, output, closed, ?_, ?_, calm⟩
  · rw [directory_of_setting setting, directory_of_setting setting', twin.directory]
  · rw [limits_of_setting setting, limits_of_setting setting', twin.limits]
  · rw [codecs_of_setting setting, codecs_of_setting setting', twin.codecs]
  · rw [faults_of_setting setting, twin.faultless]
  · rw [show w'.draws = w.draws from congrArg Setting.draws setting]
    exact twin.lettered

/-- Twins stay so as long as their trees do not change. -/
theorem of_unmoved (twin : Twin a b w v) (one : w.Unmoved w') (other : v.Unmoved v')
    (output : TellAlike a b w' v') : Twin a b w' v' := by
  refine twin.next one.setting other.setting ?_ output ?_ ?_
  · rw [one.tree, other.tree, twin.tree]
  · rw [one.tree]
    exact twin.closed
  · refine twin.calm.of_names other.setting fun around name present => ?_
    rw [other.tree] at present
    exact .inl present

end Twin

end World

namespace FileSystem

open Renewal.Action

variable {a b : World}

theorem mirrors_log (level : Level) (parts : List Text) :
    Mirrors (Twin a b) (Action.log level parts) :=
  .modify fun _ _ twin => twin.of_unmoved ⟨rfl, rfl, rfl⟩ ⟨rfl, rfl, rfl⟩
    (twin.output.of_sameOutput ⟨rfl, rfl⟩ ⟨rfl, rfl⟩)

theorem mirrors_guardFault (call : FileCall) : Mirrors (Twin a b) (guardFault call) := by
  intro w v twin
  have none : ∀ x : World, x.faults = Faults.none →
      (guardFault call).run x = .ok () { x with clock := x.clock + 1 } := by
    intro x faultless
    simp [guardFault, Action.fault?, faultless, Faults.none]
  rw [none w twin.faultless, none v twin.calm.faultless]
  exact .ok () (twin.of_unmoved ⟨rfl, rfl, rfl⟩ ⟨rfl, rfl, rfl⟩
    (twin.output.of_sameOutput ⟨rfl, rfl⟩ ⟨rfl, rfl⟩))

theorem mirrors_guardPath (path : Text) : Mirrors (Twin a b) (guardPath path) := by
  unfold guardPath
  split
  · exact .pure ()
  · exact .throw _

theorem mirrors_checkEncodingName (encoding : Text) :
    Mirrors (Twin a b) (checkEncodingName encoding) := by
  refine .bind (.ofExcept _ _) fun _ => ?_
  split
  · exact .throw _
  · exact .pure ()

theorem mirrors_locate (path : Text) : Mirrors (Twin a b) (locate path) := by
  refine (mirrors_guardPath path).bind fun _ => .get ?_ fun w => ?_
  · intro w v twin
    rw [twin.find]
  · split
    · exact .throw _
    · exact .throw _
    · exact .pure _

theorem mirrors_readText (path encoding : Text) : Mirrors (Twin a b) (readText path encoding) := by
  have reads : Mirrors (Twin a b) (fileAt path) := by
    refine (mirrors_locate path).bind fun found => ?_
    split
    · exact .pure _
    · exact .throw _
    · exact .pure _
  refine (mirrors_guardFault _).bind fun _ => (mirrors_checkEncodingName encoding).bind fun _ =>
    reads.bind fun _ => .get ?_ fun w => ?_
  · intro w v twin
    rw [codec?_congr twin.codecs]
  · split
    · exact .ofExcept _ _
    · exact .throw _

end FileSystem

namespace Backup

variable {a b w v w' v' : World} {path backup backup' : Path} {text suffix encoding : Text}

theorem Ready.of_twin (ready : Ready w path backup text suffix encoding) (twin : Twin a b w v) :
    Ready v path backup text suffix encoding := by
  have room : ∀ {target}, HasRoom w target → HasRoom v target := by
    intro target room
    obtain ⟨letters, lettered, written, place, places⟩ := room
    refine ⟨letters, lettered, ?_⟩
    rw [RoomFor, twin.directory, twin.lastPlace]
    exact ⟨written, place, places⟩
  refine ⟨ready.named, ?_, ready.copyWritten, ?_, ?_, ?_, room ready.copyRoom, room ready.room,
    ready.passable, ?_⟩
  · rw [Occupied, twin.find]
    exact ready.free
  · rw [twin.lastPlace]
    exact ready.copyPlaces
  · rw [twin.lastPlace]
    exact ready.places
  · obtain ⟨place, data, mode, leads⟩ := ready.leads
    exact ⟨place, data, mode, leads.written, by rw [twin.find, leads.finds]⟩
  · obtain ⟨bytes, writes⟩ := ready.encodes
    exact ⟨bytes, (writes_congr twin.codecs).mpr writes⟩

/-- What a save leaves behind is told by where its paths led before. -/
theorem Saved.unique {copyPlace place copyPlace' place' : Location}
    {data bytes data' bytes' : Bytes} {mode mode' : Nat} (twin : Twin a b w v)
    (saved : Saved path backup text encoding w w' copyPlace place data bytes mode)
    (saved' : Saved path backup text encoding v v' copyPlace' place' data' bytes' mode') :
    v'.tree.get? = w'.tree.get? := by
  have free := saved'.free
  obtain ⟨e, present⟩ := saved.present
  obtain ⟨e', present'⟩ := saved'.present
  obtain ⟨target, leads⟩ := saved.leads
  obtain ⟨target', leads'⟩ := saved'.leads
  rw [twin.find] at free present' leads'
  cases saved.free.symm.trans free
  cases present.symm.trans present'
  cases leads.symm.trans leads'
  cases saved.writes.unique ((writes_congr twin.codecs).mp saved'.writes)
  rw [saved.tree, saved'.tree, twin.tree]

/-- A save leaves a calm world calm. -/
theorem Saved.calm {copyPlace place : Location} {data bytes : Bytes} {mode : Nat}
    (saved : Saved path backup text encoding w v copyPlace place data bytes mode) (calm : w.Calm)
    (named : pathFor path defaultSuffix = .ok backup)
    (places : ∃ place, lastPlace w backup.text = .ok place) : v.Calm := by
  obtain ⟨c, places⟩ := places
  have found := saved.free.symm.trans (find_of_lastPlace places)
  obtain ⟨rfl, -⟩ := Found.mk.inj (Except.ok.inj found)
  obtain ⟨beside, stem, rfl⟩ := suffix_of_lastPlace named places
  obtain ⟨e, there⟩ := saved.present
  refine calm.of_names saved.setting fun around name present => ?_
  by_cases live : around ++ [name] = place
  · rw [live, ← entry_of_find there]
    exact .inl rfl
  by_cases copy : around ++ [name] = beside ++ [stem ++ suffixBytes]
  · obtain ⟨-, sameName⟩ := List.append_inj' copy rfl
    exact .inr ⟨stem, (List.singleton_inj.mp sameName).symm⟩
  rw [saved.tree, Function.update_of_ne live, Function.update_of_ne copy] at present
  exact .inl present

theorem save_follows (path : Path) (text encoding : Text) :
    Action.Follows (Twin a b) (save path text defaultSuffix encoding) := by
  intro w v twin backup w' saves
  have sees := sees_of_faultless twin.faultless
  have ready := ready_of_save twin.closed sees twin.lettered saves
  have readyToo := ready.of_twin twin
  have returns := save_returns twin.calm twin.closed' readyToo
  have quiet := (within_save SameOutput path text defaultSuffix encoding w).of_ok saves
  obtain ⟨named, copyPlace, place, data, bytes, mode, saved⟩ :=
    (save_ensures twin.closed sees path text defaultSuffix encoding).of_ok saves
  cases saves' : (save path text defaultSuffix encoding).run v with
  | error failure v' => exact (returns.of_error saves').elim
  | ok backup' v' =>
    have quiet' := (within_save SameOutput path text defaultSuffix encoding v).of_ok saves'
    obtain ⟨named', copyPlace', place', data', bytes', mode', saved'⟩ :=
      (save_ensures twin.closed' (sees_of_faultless twin.calm.faultless) path text defaultSuffix
        encoding).of_ok saves'
    cases named.symm.trans named'
    exact ⟨v', rfl, twin.next saved.setting saved'.setting (saved.unique twin saved')
      (twin.output.of_sameOutput quiet quiet') saved.closed
      (saved'.calm twin.calm named readyToo.copyPlaces)⟩

end Backup

namespace Walker

variable {a b w v : World} {root : Path} {pattern : Text}

theorem Smooth.of_twin (smooth : Smooth w root pattern) (twin : Twin a b w v) :
    Smooth v root pattern := by
  have stands : v.placeOf root = w.placeOf root := placeOf_congr twin.directory root
  refine ⟨twin.calm.faultless, ⟨smooth.walkable.written, ?_, ?_⟩, ?_⟩
  · simpa only [twin.find] using smooth.walkable.start
  · simpa only [twin.find, twin.tree, stands] using smooth.walkable.lists
  · simpa only [twin.find, twin.tree, stands] using smooth.asks

/-- A walk gives the same in twins. -/
theorem walk_follows (followLinks : Bool) (sound : w.tree.Sound) (free : w.tree.LinkFree)
    (clean : root.Clean) (twin : Twin a b w v) (distinct : v.tree.Distinct) {files : List Path}
    {w' : World} (walks : ((native followLinks).walk root pattern).run w = .ok files w') :
    ∃ v', ((native followLinks).walk root pattern).run v = .ok files v' ∧ Twin a b w' v' := by
  have soundToo : v.tree.Sound := by
    refine ⟨twin.closed', distinct, fun place => ?_⟩
    rw [twin.tree]
    exact sound.names place
  have freeToo : v.tree.LinkFree := by
    intro place target
    rw [twin.tree]
    exact free place target
  obtain ⟨unmoved, walked⟩ := (walkNative_ensures sound free clean followLinks pattern).of_ok walks
  have quiet := (within_walk SameOutput (.native followLinks) root pattern w).of_ok walks
  have returns := walkNative_ensures soundToo freeToo clean followLinks pattern
  cases walks' : ((native followLinks).walk root pattern).run v with
  | error failure v' =>
    exact absurd ((walked.smooth twin.faultless).of_twin twin) (returns.of_error walks').2
  | ok files' v' =>
    obtain ⟨unmoved', walked'⟩ := returns.of_ok walks'
    have quiet' := (within_walk SameOutput (.native followLinks) root pattern v).of_ok walks'
    have same : files' = files :=
      walked.unique walked' fun text => by rw [leadsToFile, leadsToFile, twin.find]
    rw [same]
    exact ⟨v', rfl, twin.of_unmoved unmoved unmoved' (twin.output.of_sameOutput quiet quiet')⟩

end Walker

namespace Backup

variable {a b w v : World}

theorem mirrors_pairsOf (suffix : Text) (paths : List Path) :
    Action.Mirrors (Twin a b) (pairsOf suffix paths) := by
  induction paths with
  | nil => exact .pure []
  | cons path rest ih =>
    refine .bind (.ofExcept _ _) fun live => ?_
    cases live with
    | none => exact (mirrors_log _ _).bind fun _ => ih
    | some live => exact ih.bind fun _ => .pure _

/-- A search gives the same in twins. -/
theorem findAll_follows {root : Path} {suffix : Text} (followLinks : Bool) (sound : w.tree.Sound)
    (free : w.tree.LinkFree) (clean : root.Clean) (twin : Twin a b w v)
    (distinct : v.tree.Distinct) {pairs : List Pair} {w' : World}
    (searches : (findAll root (.native followLinks) suffix).run w = .ok pairs w') :
    ∃ v', (findAll root (.native followLinks) suffix).run v = .ok pairs v' ∧ Twin a b w' v' := by
  obtain ⟨files, u, walks, reads⟩ := Action.run_bind_eq_ok.mp searches
  obtain ⟨u', walks', twin⟩ :=
    Walker.walk_follows followLinks sound free clean twin distinct walks
  obtain ⟨v', reads', twin⟩ :=
    Action.Follows.of_mirrors (mirrors_pairsOf suffix files) u u' twin pairs w' reads
  exact ⟨v', Action.run_bind_eq_ok.mpr ⟨files, u', walks', reads'⟩, twin⟩

end Backup

/-- Two summaries that count the same. -/
structure RunSummary.SameCounts (s t : RunSummary) : Prop where
  totalChanges : t.totalChanges = s.totalChanges
  filesChanged : t.filesChanged = s.filesChanged
  filesScanned : t.filesScanned = s.filesScanned
  filesReported : t.filesReported = s.filesReported
  filesSkipped : t.filesSkipped = s.filesSkipped

theorem RunSummary.SameCounts.add {s t : RunSummary} (same : s.SameCounts t)
    (result : Option FileResult) : (s.add result).SameCounts (t.add result) := by
  cases result with
  | none => exact ⟨same.1, same.2, same.3, same.4, congrArg (· + 1) same.5⟩
  | some r =>
    exact ⟨congrArg (· + _) same.1, congrArg (· + _) same.2, congrArg (· + 1) same.3,
      congrArg (· + _) same.4, same.5⟩

namespace Run

open Renewal.Action

variable {a b : World}

theorem mirrors_emit (sink : Sink) (line : Text) : Mirrors (Twin a b) (sink.emit line) := by
  cases sink with
  | discard => exact .pure ()
  | collect =>
    refine .modify fun w v twin => twin.of_unmoved ⟨rfl, rfl, rfl⟩ ⟨rfl, rfl, rfl⟩ ?_
    obtain ⟨lines, text, told, told'⟩ := twin.output
    refine ⟨lines ++ [line], text, ⟨?_, told.printed⟩, ⟨?_, told'.printed⟩⟩
    · rw [← List.append_assoc, ← told.emitted]
    · rw [← List.append_assoc, ← told'.emitted]
  | print =>
    refine .bind (.ofExcept _ _) fun _ => .modify fun w v twin =>
      twin.of_unmoved ⟨rfl, rfl, rfl⟩ ⟨rfl, rfl, rfl⟩ ?_
    obtain ⟨lines, text, told, told'⟩ := twin.output
    refine ⟨lines, text ++ Console.render line, ⟨told.emitted, ?_⟩, ⟨told'.emitted, ?_⟩⟩
    · rw [← List.append_assoc, ← told.printed]
    · rw [← List.append_assoc, ← told'.printed]

theorem mirrors_readFile? (path : Path) (encoding : Text) :
    Mirrors (Twin a b) (readFile? path encoding) := by
  refine .tryCatch ((mirrors_readText _ _).bind fun _ => .pure _) fun failure => ?_
  split
  · exact (mirrors_log _ _).bind fun _ => .pure _
  · exact .throw _

theorem mirrors_updateText (engine : Engine) (rules : List Rule) (t : Text) :
    Mirrors (Twin a b) (updateText engine rules t) := by
  unfold updateText
  split
  · exact (Mirrors.forM fun _ => mirrors_log _ _).bind fun _ => .pure _
  · exact (Mirrors.forM fun _ => mirrors_log _ _).bind fun _ => .throw _

variable {tools : Tools} {options : RunOptions}

theorem updateFile_follows (suffix : options.suffix = Backup.defaultSuffix) (path : Path)
    (t : Text) : Follows (Twin a b) (updateFile tools options path t) := by
  unfold updateFile
  refine (Follows.of_mirrors (mirrors_updateText _ _ t)).bind fun u => ?_
  split
  · exact .of_mirrors (.pure _)
  · refine (Follows.of_mirrors (.forM fun _ => mirrors_log _ _)).bind fun _ =>
      (Follows.of_mirrors (mirrors_emit _ _)).bind fun _ => ?_
    rw [suffix]
    exact (Backup.save_follows path _ _).bind fun _ => .of_mirrors (.pure _)

theorem processFile_follows (suffix : options.suffix = Backup.defaultSuffix) (path : Path) :
    Follows (Twin a b) (processFile tools options path) := by
  unfold processFile
  refine (Follows.of_mirrors (mirrors_readFile? _ _)).bind fun answer => ?_
  split
  · exact .of_mirrors (.pure _)
  · rename_i t
    refine (Follows.of_mirrors (.forM fun detected => ?_)).bind fun _ => .get ?_ fun w => ?_
    · unfold logDetected
      split
      · exact .pure ()
      · exact mirrors_log _ _
    · intro w v twin
      rw [twin.directory]
    · refine (Follows.of_mirrors (.forM fun _ => mirrors_emit _ _)).bind fun _ => ?_
      split
      · exact (updateFile_follows suffix path t).bind fun _ => .of_mirrors (.pure _)
      · exact .of_mirrors (.pure _)

/-- Files are processed with the same results in twins. -/
theorem processFiles_follows (suffix : options.suffix = Backup.defaultSuffix) {paths : List Path} :
    ∀ {s t summary : RunSummary} {w v w' : World}, s.SameCounts t → Twin a b w v →
      (processFiles tools options s paths).run w = .ok summary w' →
      ∃ again v', (processFiles tools options t paths).run v = .ok again v' ∧
        summary.SameCounts again ∧ Twin a b w' v' := by
  induction paths with
  | nil =>
    intro s t summary w v w' same twin returns
    cases returns
    exact ⟨t, v, rfl, same, twin⟩
  | cons path rest ih =>
    intro s t summary w v w' same twin returns
    rw [processFiles] at returns ⊢
    by_cases copy : path.name.endsWith options.suffix
    · rw [if_pos copy] at returns ⊢
      exact ih same twin returns
    · rw [if_neg copy] at returns ⊢
      obtain ⟨result, u, one, two⟩ := run_bind_eq_ok.mp returns
      obtain ⟨u', one', twin⟩ := processFile_follows suffix path w v twin result u one
      obtain ⟨again, v', two', counts, twin⟩ := ih (same.add result) twin two
      exact ⟨again, v', run_bind_eq_ok.mpr ⟨result, u', one', two'⟩, counts, twin⟩

/-- What a run tells in the end. -/
def conclusion (tools : Tools) (options : RunOptions) (summary : RunSummary) : Action Unit := do
  if options.change then tools.sink.emit summary.line
  Action.log .debug ["Scanned ", .ofNat summary.filesScanned, " files, ",
    .ofNat summary.filesReported, " with findings, ", .ofNat summary.filesSkipped, " skipped"]

theorem mirrors_conclusion (summary : RunSummary) :
    Mirrors (Twin a b) (conclusion tools options summary) := by
  unfold conclusion
  split
  · exact (mirrors_emit _ _).bind fun _ => mirrors_log _ _
  · exact mirrors_log _ _

theorem conclusion_congr {s t : RunSummary} (same : s.SameCounts t) :
    conclusion tools options t = conclusion tools options s := by
  unfold conclusion RunSummary.line
  rw [same.totalChanges, same.filesChanged, same.filesScanned, same.filesReported,
    same.filesSkipped]

theorem scan_eq (tools : Tools) (options : RunOptions) (summary : RunSummary) :
    scan tools options summary = (do
      let files ← tools.walker.walk (.ofText options.path) options.name
      let summary ← processFiles tools options summary files
      conclusion tools options summary
      return summary) := by
  unfold scan conclusion
  by_cases change : options.change = true
  · simp only [change, ↓reduceIte, bind_assoc]
  · simp only [change]
    rfl

/-- What a scan does in one of two twins it does in the other. -/
theorem scan_follows {followLinks : Bool} (native : tools.walker = .native followLinks)
    (suffix : options.suffix = Backup.defaultSuffix) {s t summary : RunSummary}
    {w v w' : World} (same : s.SameCounts t) (sound : w.tree.Sound) (free : w.tree.LinkFree)
    (twin : Twin a b w v) (distinct : v.tree.Distinct)
    (returns : (scan tools options s).run w = .ok summary w') :
    ∃ again v', (scan tools options t).run v = .ok again v' ∧ summary.SameCounts again ∧
      Twin a b w' v' := by
  rw [scan_eq] at returns ⊢
  obtain ⟨files, w₁, walks, rest⟩ := run_bind_eq_ok.mp returns
  rw [native] at walks ⊢
  obtain ⟨v₁, walks', twin⟩ :=
    Walker.walk_follows followLinks sound free (Path.clean_ofText _) twin distinct walks
  obtain ⟨counted, w₂, processes, rest⟩ := run_bind_eq_ok.mp rest
  obtain ⟨counted', v₂, processes', counts, twin⟩ := processFiles_follows suffix same twin processes
  obtain ⟨_, w₃, tells, done⟩ := run_bind_eq_ok.mp rest
  obtain ⟨v₃, tells', twin⟩ := Follows.of_mirrors (mirrors_conclusion counted) w₂ v₂ twin _ w₃ tells
  rw [← conclusion_congr counts] at tells'
  cases done
  exact ⟨counted', v₃, run_bind_eq_ok.mpr ⟨files, v₁, walks', run_bind_eq_ok.mpr ⟨counted', v₂,
    processes', run_bind_eq_ok.mpr ⟨(), v₃, tells', rfl⟩⟩⟩, counts, twin⟩

end Run

end Renewal
