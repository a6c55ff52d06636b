import Renewal.Proofs.Replacement
import Renewal.Run

/-! # What actions leave alone

Looking files up, reading, listing, walking and comparing do no more than housekeeping, and what
reporting adds changes no file: these actions are quiet. Only saving and putting back change the
tree, and they stay within every relation that changes of the tree stay within. One such relation
says that a tree keeps its entries apart (`Tree.Distinct`).
-/

namespace Renewal

open Renewal.Action

section Reads

variable (rel : World → World → Prop) [Upkeep rel]

namespace FileSystem

theorem within_locate (path : Text) : Within rel (locate path) := by
  intro w
  refine (locate_ensures w path).mono ?_ ?_
  · intro _ v same
    rw [same.1]
    exact Upkeep.refl w
  · intro _ v stuck
    rw [stuck.1]
    exact Upkeep.refl w

theorem within_fileAt (path : Text) : Within rel (fileAt path) := by
  refine (within_locate rel path).bind fun found => ?_
  split
  · exact .pure _
  · exact .throw _
  · exact .pure _

theorem within_readText (path encoding : Text) : Within rel (readText path encoding) := by
  refine (within_guardFault rel _).bind fun _ =>
    (within_checkEncodingName rel encoding).bind fun _ => (within_fileAt rel path).bind fun _ =>
      Within.get.bind fun w => ?_
  split
  · exact .ofExcept _ _
  · exact .throw _

theorem within_entry (path : Text) : Within rel ( entry? path) := by
  unfold entry?
  refine .ite (.pure _) (Within.get.bind fun w => ?_)
  split
  · exact .pure _
  · exact .ite (.pure _) (.throw _)

theorem within_isDirectory (path : Text) : Within rel (isDirectory path) :=
  (within_entry rel path).bind fun _ => .pure _

theorem within_isFile (path : Text) : Within rel (isFile path) := by
  refine (within_entry rel path).bind fun _ => ?_
  split <;> exact .pure _

theorem within_isTaken (path : Text) : Within rel (isTaken path) := by
  refine .ite (.pure _) ((Within.fault? _).bind fun fault => ?_)
  split
  · exact .pure _
  · refine Within.get.bind fun w => ?_
    split <;> exact .pure _

theorem within_list (path : Text) : Within rel (list path) := by
  refine (Within.fault? _).bind fun fault => ?_
  split
  · exact .pure _
  · refine Within.get.bind fun w => ?_
    split
    · exact .pure _
    · split <;> exact .pure _

end FileSystem

namespace Walker

open FileSystem

theorem within_filesIn (pattern directory : Text) (names : List Text) :
    Within rel (filesIn pattern directory names) := by
  induction names with
  | nil => exact .pure _
  | cons name rest ih =>
    have more : ∀ here : Bool, Within rel (do
        let more ← filesIn pattern directory rest
        return if here then (Path.ofText directory).child name :: more else more :
          Action (List Path)) := fun here => ih.bind fun _ => .pure _
    unfold filesIn
    exact .ite ((within_isFile rel _).bind more) ((Within.pure _).bind more)

theorem within_visit (followLinks : Bool) (pattern : Text) (depth : Nat) :
    ∀ progress directory, Within rel (visit followLinks pattern depth progress directory) := by
  induction depth with
  | zero => exact fun progress _ => .pure progress
  | succ depth ih =>
    intro progress directory
    refine (within_list rel directory).bind fun result => ?_
    split
    · exact .throw _
    · refine Within.get.bind fun w => ?_
      split
      · exact .throw _
      · refine .ite ((Within.log _ _).bind fun _ => .pure _) ?_
        exact (within_filesIn rel _ _ _).bind fun _ => Within.foldlM ih _

theorem within_walkNative (followLinks : Bool) (root : Path) (pattern : Text) :
    Within rel (walkNative followLinks root pattern) := by
  refine (within_isDirectory rel _).bind fun answer => ?_
  have walks : Within rel (do
      let depth := (← get).tree.entries.length + 2
      let found ← visit followLinks pattern depth {} root.text
      let files := found.files.mergeSort Path.le
      Action.log .debug ["Found ", .ofNat files.length, " files matching ", pattern, " under ",
        root.text]
      return files : Action (List Path)) :=
    Within.get.bind fun w => (within_visit rel _ _ _ _ _).bind fun _ =>
      (Within.log _ _).bind fun _ => .pure _
  exact .ite ((Within.throw _).bind fun _ => walks) walks

omit [Upkeep rel] in
theorem within_walk [Housekeeping rel] (walker : Walker) (root : Path) (pattern : Text) :
    Within rel (walker.walk root pattern) := by
  cases walker with
  | native followLinks => exact within_walkNative rel followLinks root pattern
  | find command timeout =>
    refine (Within.runProgram _ _).bind fun outcome => ?_
    split
    · exact .throw _
    · exact .throw _
    · refine (Within.ofExcept _ _).bind fun _ => (Within.ofExcept _ _).bind fun _ => ?_
      exact .ite ((Within.throw _).bind fun _ => .pure _) (.pure _)
  | fixed paths => exact .pure paths

end Walker

namespace Differ

theorem within_readLines (encoding : Text) (path : Path) :
    Within rel (readLines encoding path) := by
  refine .bind (.tryCatch (FileSystem.within_readText rel _ _) fun failure => ?_) fun _ => .pure _
  split <;> exact .throw _

omit [Upkeep rel] in
theorem within_diff [Housekeeping rel] (differ : Differ) (turn : Nat) (old new : Path) :
    Within rel (differ.diff turn old new) := by
  cases differ with
  | native encoding context =>
    exact (within_readLines rel _ _).bind fun _ => (within_readLines rel _ _).bind fun _ => .pure _
  | program command timeout =>
    refine (Within.runProgram _ _).bind fun outcome => ?_
    split
    · exact .throw _
    · exact .throw _
    · exact .ite ((Within.log _ _).bind fun _ => (Within.throw _).bind fun _ => .pure _) (.pure _)
  | prepared answers =>
    dsimp only [diff]
    split
    · exact .pure _
    · exact .throw _
    · exact .pure _

end Differ

namespace Backup

theorem within_pairsOf (suffix : Text) (paths : List Path) :
    Within rel (pairsOf suffix paths) := by
  induction paths with
  | nil => exact .pure []
  | cons path rest ih =>
    refine (Within.ofExcept _ _).bind fun live => ?_
    split
    · exact (Within.log _ _).bind fun _ => ih
    · exact ih.bind fun _ => .pure _

omit [Upkeep rel] in
theorem within_findAll [Housekeeping rel] (root : Path) (walker : Walker) (suffix : Text) :
    Within rel (findAll root walker suffix) :=
  (walker.within_walk rel root _).bind fun _ => within_pairsOf rel suffix _

omit [Upkeep rel] in
theorem within_compare [Housekeeping rel] (differ : Differ) (turn : Nat) (pair : Pair) :
    Within rel (compare differ turn pair) := by
  refine .tryCatch ((differ.within_diff rel _ _ _).bind fun _ => .pure _) fun failure => ?_
  split
  · exact (Within.log _ _).bind fun _ => .pure _
  · exact .throw _

end Backup

namespace Run

theorem within_readFile? (path : Path) (encoding : Text) :
    Within rel (readFile? path encoding) := by
  refine .tryCatch ((FileSystem.within_readText rel _ _).bind fun _ => .pure _) fun failure => ?_
  split
  · exact (Within.log _ _).bind fun _ => .pure _
  · exact .throw _

theorem within_logDetected (path : Path) (detected : Heuristic × List Text) :
    Within rel (logDetected path detected) := by
  unfold logDetected
  split
  · exact .pure ()
  · exact .log _ _

theorem within_logApplied (applied : List (Rule × Nat)) :
    Within rel (applied.forM logApplied) :=
  .forM fun _ => .log _ _

theorem within_updateText (engine : Engine) (rules : List Rule) (t : Text) :
    Within rel (updateText engine rules t) := by
  unfold updateText
  split
  · exact (within_logApplied rel _).bind fun _ => .pure _
  · exact (within_logApplied rel _).bind fun _ => .throw _

end Run

end Reads

namespace Sink

theorem quiet_emit (sink : Sink) (line : Text) : Quiet (sink.emit line) := by
  cases sink with
  | discard => exact .pure ()
  | collect => exact fun _ => ⟨rfl, rfl, rfl⟩
  | print => exact (Within.ofExcept _ _).bind fun _ => fun _ => ⟨rfl, rfl, rfl⟩

end Sink

namespace Backup

theorem quiet_comparePairs (differ : Differ) (sink : Sink) (turn : Nat) (pairs : List Pair) :
    Quiet (comparePairs differ sink turn pairs) := by
  induction pairs generalizing turn with
  | nil => exact .pure []
  | cons pair rest ih =>
    exact (within_compare _ _ _ _).bind fun _ =>
      (Within.forM fun _ => sink.quiet_emit _).bind fun _ => (ih _).bind fun _ => .pure _

theorem quiet_diff (root : Path) (walker : Walker) (differ : Differ) (suffix : Text)
    (sink : Sink) : Quiet (diff root walker differ suffix sink) :=
  (within_findAll _ _ _ _).bind fun _ => quiet_comparePairs _ _ _ _

end Backup

namespace FileSystem

open Backup World

/-- Nothing stops a file from being read as text. -/
structure CanRead (w : World) (path encoding : Text) : Prop where
  faultless : w.faults = Faults.none
  passable : Passable encoding
  reads : ∃ codec place data mode t, w.codec? encoding = some codec ∧
    Leads w path place (.file data mode) ∧ codec.decode data = .ok t

/-- A text is what a file holds in an encoding. What is not a file may be read as anything. -/
def ReadsAs (w : World) (path encoding t : Text) : Prop :=
  ∃ codec place e, w.codec? encoding = some codec ∧ w.find path = .ok ⟨place, some e⟩ ∧
    ∀ content mode, e = .file content mode → codec.decode content = .ok t

theorem ReadsAs.of_unmoved {w v : World} {path encoding t : Text}
    (reads : ReadsAs w path encoding t) (unmoved : w.Unmoved v) : ReadsAs v path encoding t := by
  obtain ⟨codec, place, e, known, finds, decoded⟩ := reads
  exact ⟨codec, place, e, by rw [codec?_of_setting unmoved.setting, known],
    by rw [find_of_unmoved unmoved, finds], decoded⟩

theorem readText_ensures (w : World) (path encoding : Text) :
    (readText path encoding).Ensures w (fun t v => w.Unmoved v ∧ ReadsAs w path encoding t)
      (fun _ v => w.Unmoved v ∧ ¬CanRead w path encoding) := by
  unfold readText
  rw [Action.ensures_bind]
  refine (guardFault_ensures w _).mono ?_ fun _ _ ⟨unmoved, faulty⟩ =>
    ⟨unmoved, fun can => faulty can.faultless⟩
  intro _ v unmoved
  rw [Action.ensures_bind]
  refine (checkEncodingName_ensures v _).mono ?_ ?_
  rotate_left
  · rintro _ _ ⟨rfl, impassable⟩
    exact ⟨unmoved, fun can => impassable can.passable⟩
  rintro _ _ ⟨rfl, -⟩
  rw [Action.ensures_bind]
  refine (fileAt_ensures _ path).mono ?_ ?_
  rotate_left
  · rintro _ _ ⟨rfl, nowhere⟩
    refine ⟨unmoved, fun can => ?_⟩
    obtain ⟨-, place, data, mode, -, -, ⟨written, finds⟩, -⟩ := can.reads
    exact nowhere place data mode ⟨written, by rw [find_of_unmoved unmoved, finds]⟩
  rintro bytes _ ⟨rfl, place, e, ⟨-, finds⟩, -, holds⟩
  rw [find_of_unmoved unmoved] at finds
  rw [Action.ensures_bind, Action.ensures_get, codec?_of_setting unmoved.setting]
  cases known : w.codec? encoding with
  | none =>
    refine ⟨unmoved, fun can => ?_⟩
    obtain ⟨codec, -, -, -, -, listed, -⟩ := can.reads
    cases known.symm.trans listed
  | some codec =>
    dsimp only
    cases decodes : codec.decode bytes.1 with
    | error failure =>
      refine ⟨unmoved, fun can => ?_⟩
      obtain ⟨codec', place', data, mode, t, listed, leads, decodes'⟩ := can.reads
      cases known.symm.trans listed
      cases finds.symm.trans leads.finds
      rw [holds data mode rfl, decodes'] at decodes
      cases decodes
    | ok t =>
      refine ⟨unmoved, codec, place, e, known, finds, fun content mode file => ?_⟩
      rwa [holds content mode file] at decodes

end FileSystem

namespace Run

open FileSystem

theorem readFile?_ensures (w : World) (path : Path) (encoding : Text) :
    (readFile? path encoding).Ensures w
      (fun answer v => w.Unmoved v ∧ ∀ t, answer = some t → ReadsAs w path.text encoding t)
      (fun _ v => w.Unmoved v) := by
  unfold readFile?
  rw [Action.ensures_tryCatch, Action.ensures_bind]
  refine (readText_ensures w path.text encoding).mono ?_ ?_
  · rintro t v ⟨unmoved, reads⟩
    exact ⟨unmoved, by rintro _ ⟨⟩; exact reads⟩
  · rintro failure v ⟨unmoved, -⟩
    split
    · rw [Action.ensures_bind]
      refine (Action.log_ensures v _ _).mono ?_ fun _ _ never => never.elim
      exact fun _ _ later => ⟨unmoved.trans later, by simp⟩
    · exact unmoved

theorem updateText_ensures (w : World) (engine : Engine) (rules : List Rule) (t : Text) :
    (updateText engine rules t).Ensures w
      (fun u v => w.Unmoved v ∧ update rules t engine = .ok u) (fun _ v => w.Unmoved v) := by
  unfold updateText
  cases updates : update rules t engine with
  | error e =>
    rw [Action.ensures_bind]
    exact (within_logApplied _ e.applied w).mono (fun _ _ unmoved => unmoved)
      fun _ _ unmoved => unmoved
  | ok u =>
    rw [Action.ensures_bind]
    exact (within_logApplied _ u.applied w).mono (fun _ _ unmoved => ⟨unmoved, rfl⟩)
      fun _ _ unmoved => unmoved

end Run

namespace Run

open FileSystem

variable {tools : Tools} {options : RunOptions}

theorem quiet_processFile (reads : options.change = false) (path : Path) :
    Quiet (processFile tools options path) := by
  refine (within_readFile? _ _ _).bind fun answer => ?_
  split
  · exact .pure _
  · refine (Within.forM (within_logDetected _ path)).bind fun _ => Within.get.bind fun w =>
      (Within.forM tools.sink.quiet_emit).bind fun _ => ?_
    rw [if_neg (by simp [reads])]
    exact .pure _

theorem quiet_processFiles (reads : options.change = false) (summary : RunSummary)
    (paths : List Path) : Quiet (processFiles tools options summary paths) := by
  induction paths generalizing summary with
  | nil => exact .pure _
  | cons path rest ih =>
    exact .ite (ih _) ((quiet_processFile reads path).bind fun _ => ih _)

theorem quiet_conclude (tools : Tools) (options : RunOptions) (summary : RunSummary) :
    Quiet (do
      if options.change then tools.sink.emit summary.line
      Action.log .debug ["Scanned ", .ofNat summary.filesScanned, " files, ",
        .ofNat summary.filesReported, " with findings, ", .ofNat summary.filesSkipped, " skipped"]
      return summary : Action RunSummary) :=
  .ite ((tools.sink.quiet_emit _).bind fun _ => (Within.log _ _).bind fun _ => .pure _)
    ((Within.log _ _).bind fun _ => .pure _)

/-- A run that does not change files only reads. -/
theorem quiet_scan (reads : options.change = false) (summary : RunSummary) :
    Quiet (scan tools options summary) :=
  (Walker.within_walk _ _ _ _).bind fun files =>
    (quiet_processFiles reads summary files).bind fun summary =>
      quiet_conclude tools options summary

section Saves

variable {holds left : World → Prop} {w : World} {path : Path}

/-- What may be saved in place of a file: an update of the text that the file is read as. -/
def Updates (tools : Tools) (options : RunOptions) (w : World) (path : Path) (u : Updated) : Prop :=
  ∃ t, ReadsAs w path.text options.encoding t ∧ update tools.rules.rules t tools.engine = .ok u

/-- Updating a file does nothing to a tree but save the file. -/
theorem updateFile_keeps (unmoved : ∀ w v, holds w → w.Unmoved v → holds v)
    (stop : ∀ w, holds w → left w)
    (saves : ∀ w u, holds w → Updates tools options w path u →
      (Backup.save path u.text options.suffix options.encoding).Ensures w (fun _ => holds)
        fun _ => left)
    (before : holds w) {t : Text} (reads : ReadsAs w path.text options.encoding t) :
    (updateFile tools options path t).Ensures w (fun _ => holds) fun _ => left := by
  unfold updateFile
  rw [Action.ensures_bind]
  refine (updateText_ensures w _ _ t).mono ?_ fun _ v later => stop v (unmoved w v before later)
  rintro u v ⟨later, updates⟩
  rw [Action.ensures_ite]
  refine ⟨fun _ => unmoved w v before later, fun _ => ?_⟩
  have tells : Quiet (do
      u.applied.forM (logChange path)
      tools.sink.emit (.concat ["... updating ", path.text, " (", .ofNat u.changes, " changes)"]) :
        Action Unit) :=
    (Within.forM fun _ => .log _ _).bind fun _ => tools.sink.quiet_emit _
  rw [← bind_assoc, Action.ensures_bind]
  refine (tells v).mono ?_ fun _ v' told => stop v' (unmoved w v' before (later.trans told))
  intro _ v' told
  have later := later.trans told
  rw [Action.ensures_bind]
  exact (saves v' u (unmoved w v' before later) ⟨t, reads.of_unmoved later, updates⟩).mono
    (fun _ _ kept => kept) fun _ _ kept => kept

theorem processFile_keeps (unmoved : ∀ w v, holds w → w.Unmoved v → holds v)
    (stop : ∀ w, holds w → left w)
    (saves : ∀ w u, holds w → Updates tools options w path u →
      (Backup.save path u.text options.suffix options.encoding).Ensures w (fun _ => holds)
        fun _ => left)
    (before : holds w) :
    (processFile tools options path).Ensures w (fun _ => holds) fun _ => left := by
  have stays : ∀ v, w.Unmoved v → left v := fun v later => stop v (unmoved w v before later)
  unfold processFile
  rw [Action.ensures_bind]
  refine (readFile?_ensures w path _).mono ?_ fun _ => stays
  rintro answer v ⟨later, reads⟩
  cases answer with
  | none => exact unmoved w v before later
  | some t =>
    dsimp only
    rw [Action.ensures_bind]
    refine (Within.forM (within_logDetected World.Unmoved path) v).mono ?_ fun _ v' told =>
      stays v' (later.trans told)
    intro _ v' told
    have later := later.trans told
    rw [Action.ensures_bind, Action.ensures_get, Action.ensures_bind]
    refine (Within.forM tools.sink.quiet_emit v').mono ?_ fun _ w' told =>
      stays w' (later.trans told)
    intro _ w' told
    have later := later.trans told
    have before := unmoved w w' before later
    rw [Action.ensures_ite]
    refine ⟨fun _ => ?_, fun _ => before⟩
    rw [Action.ensures_bind]
    exact (updateFile_keeps unmoved stop saves before ((reads t rfl).of_unmoved later)).mono
      (fun _ _ kept => kept) fun _ _ kept => kept

/-- Processing files does nothing to a tree but save updates of those that are no saved copies. -/
theorem processFiles_keeps (holds left : World → Prop)
    (unmoved : ∀ w v, holds w → w.Unmoved v → holds v) (stop : ∀ w, holds w → left w)
    {paths : List Path}
    (saves : ∀ path ∈ paths, ¬path.name.endsWith options.suffix → ∀ w u, holds w →
      Updates tools options w path u →
      (Backup.save path u.text options.suffix options.encoding).Ensures w (fun _ => holds)
        fun _ => left)
    (summary : RunSummary) (before : holds w) :
    (processFiles tools options summary paths).Ensures w (fun _ => holds) fun _ => left := by
  induction paths generalizing summary w with
  | nil => exact before
  | cons path rest ih =>
    have onward := fun path member => saves path (List.mem_cons_of_mem _ member)
    rw [processFiles, Action.ensures_ite]
    refine ⟨fun _ => ih onward _ before, fun plain => ?_⟩
    rw [Action.ensures_bind]
    exact (processFile_keeps unmoved stop (saves path List.mem_cons_self plain) before).mono
      (fun _ _ kept => ih onward _ kept) fun _ _ kept => kept

end Saves

end Run

section Changes

variable (rel : World → World → Prop) [Reworking rel]

namespace FileSystem

theorem within_put (place : Location) (e : Entry) : Within rel (put place e) :=
  fun w => Reworking.set w place e

theorem within_create (path : Text) : Within rel (create path) := by
  refine (within_guardPath rel path).bind fun _ => Within.get.bind fun w => ?_
  split
  · exact .throw _
  · exact .pure _
  · refine Within.shortage?.bind fun shortage => ?_
    split
    · exact .throw _
    · exact (within_put rel _ _).bind fun _ => .pure _

theorem within_createTemporary (path : Text → Text) : Within rel (createTemporary path) := by
  have creates : ∀ (draws : Nat → Text) (left attempt : Nat),
      Within rel (createFirst path draws attempt left) := by
    intro draws left
    induction left with
    | zero => exact fun _ => .throw _
    | succ left ih =>
      intro attempt
      refine (within_create rel _).bind fun made => ?_
      split
      · exact .pure _
      · exact ih _
  exact Within.get.bind fun w => creates _ _ _

theorem within_overwrite (place : Location) (mode : Nat) (data : Bytes) :
    Within rel (overwrite place mode data) := by
  have appends : ∀ (pieces : List Bytes) (written : Bytes),
      Within rel (append place mode written pieces) := by
    intro pieces
    induction pieces with
    | nil => exact fun _ => .pure ()
    | cons piece rest ih => exact fun _ => (within_put rel _ _).bind fun _ => ih _
  exact Within.get.bind fun _ => (within_put rel _ _).bind fun _ => appends _ _

theorem within_write (path : Text) (data : Bytes) : Within rel (write path data) := by
  refine (within_locate rel path).bind fun found => ?_
  split
  · refine Within.shortage?.bind fun shortage => ?_
    split
    · exact within_overwrite rel _ _ _
    · exact (within_overwrite rel _ _ _).bind fun _ => .throw _
  · exact .throw _

theorem within_setMode (path : Text) (mode : Nat) : Within rel (setMode path mode) := by
  refine (within_locate rel path).bind fun found => ?_
  split
  · exact within_put rel _ _
  · exact .pure _

theorem within_copy (source target : Text) : Within rel (copy source target) := by
  have copies : Within rel (do
      let file ← fileAt source
      write target file.1
      setMode target file.2 : Action Unit) :=
    (within_fileAt rel source).bind fun _ => (within_write rel _ _).bind fun _ =>
      within_setMode rel _ _
  refine (within_guardFault rel _).bind fun _ => Within.get.bind fun w => ?_
  have onward : Within rel (do
      if (w.find source).toOption.bind (·.entry) = some .pipe then
        throw (.file (.namedPipe source))
      let file ← fileAt source
      write target file.1
      setMode target file.2 : Action Unit) :=
    .ite (.bind (.throw _) fun _ => copies) copies
  exact .ite (.bind (.throw _) fun _ => onward) onward

theorem within_copyMode (source target : Text) : Within rel (copyMode source target) := by
  refine (within_guardFault rel _).bind fun _ => (within_locate rel source).bind fun found => ?_
  split
  · exact within_setMode rel _ _
  · exact .pure _

theorem within_remove (path : Text) : Within rel (remove path) := by
  refine (Within.fault? _).bind fun fault => ?_
  split
  · exact .ite (.pure ()) (.throw _)
  · intro w
    rw [Action.ensures_modify]
    split
    · exact Reworking.erase w _
    · exact Upkeep.refl w

theorem within_replace (source target : Text) : Within rel (replace source target) := by
  refine (within_guardFault rel _).bind fun _ => (within_guardPath rel _).bind fun _ =>
    (within_guardPath rel _).bind fun _ w => ?_
  rw [Action.ensures_bind, Action.ensures_get]
  split
  · exact Upkeep.refl w
  · rename_i tree moves
    obtain ⟨start, goal, -, -, -, rfl⟩ := replaced_eq_ok_iff.1 moves
    exact Reworking.move w start goal

end FileSystem

namespace Backup

open FileSystem

theorem within_replaceAtOnce (target : Path) {fill : Text → Action Unit}
    (fills : ∀ path, Within rel (fill path)) : Within rel (replaceAtOnce target fill) :=
  Within.get.bind fun _ => (within_createTemporary rel _).bind fun path =>
    .tryCatch (.bind (fills path) fun _ => within_replace rel _ _) fun _ =>
      (within_remove rel path).bind fun _ => .throw _

theorem within_fillWith (text encoding like target : Text) :
    Within rel (fillWith text encoding like target) := by
  refine (within_guardFault rel _).bind fun _ =>
    (within_checkEncodingName rel encoding).bind fun _ => Within.get.bind fun w => ?_
  split
  · exact .throw _
  · exact (Within.ofExcept _ _).bind fun _ => (within_write rel _ _).bind fun _ =>
      within_copyMode rel _ _

theorem within_explain {wrap : FileError → Failure} {action : Action Unit}
    (within : Within rel action) : Within rel (explain wrap action) := by
  refine .tryCatch within fun failure => ?_
  split <;> exact .throw _

theorem within_save (path : Path) (text suffix encoding : Text) :
    Within rel (save path text suffix encoding) := by
  refine (Within.ofExcept _ _).bind fun backup => (within_isTaken rel _).bind fun taken => ?_
  have saves : Within rel (do
      explain (fun e => .save path.text (.notCopied backup.text e)) <|
        replaceAtOnce backup (copy path.text)
      Action.log .debug ["Backed up ", path.text, " to ", backup.text]
      explain (fun e => .save path.text (.notWritten path.text backup.text e)) <|
        replaceAtOnce path (fillWith text encoding backup.text)
      return backup : Action Path) :=
    (within_explain rel (within_replaceAtOnce rel _ (within_copy rel _))).bind fun _ =>
      (Within.log _ _).bind fun _ =>
        (within_explain rel (within_replaceAtOnce rel _ (within_fillWith rel _ _ _))).bind fun _ =>
          .pure _
  exact .ite (.bind (.throw _) fun _ => saves) saves

theorem within_reset (root : Path) (walker : Walker) (suffix : Text) :
    Within rel (reset root walker suffix) := by
  refine (within_findAll rel _ _ _).bind fun pairs => .mapM fun pair => ?_
  exact (within_replace rel _ _).bind fun _ => (Within.log _ _).bind fun _ => .pure _

end Backup

theorem Run.within_restoreFirst (tools : Tools) (options : RunOptions) :
    Within rel (restoreFirst tools options) := by
  refine .ite ?_ (.pure _)
  exact (Backup.within_reset _ _ _ _).bind fun _ => (Within.log _ _).bind fun _ => .pure _

end Changes

theorem Action.Quiet.within {α : Type} {action : Action α} (quiet : Quiet action)
    {rel : World → World → Prop} (still : ∀ {w v : World}, w.Unmoved v → rel w v) :
    Within rel action :=
  fun w => (quiet w).mono (fun _ _ => still) fun _ _ => still

section Runs

variable (rel : World → World → Prop) [Reworking rel]
  (still : ∀ {w v : World}, w.Unmoved v → rel w v)

include still

/-- A run stays within a relation that changes of the tree and reports stay within. -/
theorem Run.within_scan (tools : Tools) (options : RunOptions) (summary : RunSummary) :
    Within rel (scan tools options summary) := by
  refine (Walker.within_walk _ _ _ _).bind fun files => .bind ?_ fun summary =>
    (quiet_conclude tools options summary).within still
  intro w
  refine processFiles_keeps (rel w) (rel w) ?_ (fun _ kept => kept) ?_ summary (Upkeep.refl w)
  · exact fun v u kept unmoved => Upkeep.trans kept (still unmoved)
  · intro path _ _ v u kept _
    exact (Backup.within_save rel path u.text _ _ v).mono
      (fun _ _ => Upkeep.trans kept) fun _ _ => Upkeep.trans kept

theorem within_run (tools : Tools) (options : RunOptions) : Within rel (run tools options) := by
  refine (Run.within_restoreFirst _ _ _).bind fun restored =>
    .ite ?_ (Run.within_scan rel still tools options _)
  exact .bind ((Backup.quiet_diff _ _ _ _ _).within still) fun _ => .pure _

end Runs

namespace World

/-- The tree keeps its entries apart. -/
def StaysApart (w v : World) : Prop :=
  w.tree.Distinct → v.tree.Distinct

instance : Reworking StaysApart where
  refl _ distinct := distinct
  trans first second distinct := second (first distinct)
  tick _ _ distinct := distinct
  note _ _ distinct := distinct
  call _ _ _ distinct := distinct
  set _ place e distinct := distinct.set place e
  erase _ place distinct := distinct.erase place
  move w start goal distinct := by
    dsimp only [change]
    split
    · exact distinct
    · exact distinct.move start goal

/-- What file operations go by is the same. -/
def SameSetting (w v : World) : Prop :=
  v.setting = w.setting

instance : Reworking SameSetting where
  refl _ := rfl
  trans first second := second.trans first
  tick _ _ := rfl
  note _ _ := rfl
  call _ _ _ := rfl
  set _ _ _ := rfl
  erase _ _ := rfl
  move _ _ _ := rfl

end World

theorem Action.Within.distinct {α : Type} {action : Action α} {w : World}
    (within : Within World.StaysApart action) (distinct : w.tree.Distinct) :
    action.Ensures w (fun _ v => v.tree.Distinct) fun _ v => v.tree.Distinct :=
  (within w).mono (fun _ _ stays => stays distinct) fun _ _ stays => stays distinct

theorem staysApart_run (tools : Tools) (options : RunOptions) :
    Within World.StaysApart (run tools options) :=
  within_run _ (fun unmoved distinct => by rwa [unmoved.tree]) tools options

end Renewal
