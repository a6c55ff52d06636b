import Renewal.Proofs.Replacement

/-! # A save is atomic

Saving a file before it is changed takes two steps, each of which replaces a file at once: first the
saved copy, then the file itself. The steps are put together in `Backup.save_atomic`: whatever links
there are, a save either does all of its work or leaves at most a complete saved copy behind. Any
operation can fail but the look whether there is a copy already, without which a copy is replaced,
and the removal of a temporary file, which is left behind then. Encodings with shift states need
bytes to close a text, and these are never written (`Backup.closing_left_out`).
-/

namespace Renewal.Backup

open FileSystem Renewal.Tree World

variable {w v : World} {path backup : Path} {text suffix encoding : Text}

/-- The failure by which a step stops a save, as the step itself tells it, and the world then. -/
inductive StepFails (path : Path) (text suffix encoding : Text) (w : World) :
    Failure → World → Prop
  | naming {e : NameError} (unnamed : pathFor path suffix = .error e) :
      StepFails path text suffix encoding w (.name e) w
  | copying {backup : Path} {failure : Failure} {asked v : World}
      (named : pathFor path suffix = .ok backup) (free : w.Sees → ¬Occupied w backup.text)
      (unmoved : w.Unmoved asked)
      (fails : (replaceAtOnce backup (copy path.text)).run asked = .error failure v) :
      StepFails path text suffix encoding w failure v
  | writing {backup : Path} {failure : Failure} {asked copied logged v : World}
      (named : pathFor path suffix = .ok backup) (free : w.Sees → ¬Occupied w backup.text)
      (unmoved : w.Unmoved asked)
      (copies : (replaceAtOnce backup (copy path.text)).run asked = .ok () copied)
      (still : copied.Unmoved logged)
      (fails : (replaceAtOnce path (fillWith text encoding backup.text)).run logged =
        .error failure v) :
      StepFails path text suffix encoding w failure v

/-- How the failure of a step is told: a file error as one of the save, with the path. -/
inductive Told (path : Path) : Failure → Failure → Prop
  | wrapped (e : FileError) (reason : SaveError) : Told path (.file e) (.save path.text reason)
  | asIs {failure : Failure} (other : ∀ e, failure ≠ .file e) : Told path failure failure

/-- How a save ends. -/
inductive SaveEnds (path : Path) (text suffix encoding : Text) (w : World) :
    EStateM.Result Failure World Path → Prop
  | taken {backup : Path} {v : World} (named : pathFor path suffix = .ok backup)
      (occupied : Occupied w backup.text) (unmoved : w.Unmoved v) :
      SaveEnds path text suffix encoding w (.error (.save path.text (.taken backup.text)) v)
  | stopped {cause failure : Failure} {v : World}
      (fails : StepFails path text suffix encoding w cause v) (told : Told path cause failure) :
      SaveEnds path text suffix encoding w (.error failure v)
  | done {backup : Path} {asked copied logged v : World}
      (named : pathFor path suffix = .ok backup) (free : w.Sees → ¬Occupied w backup.text)
      (unmoved : w.Unmoved asked)
      (copies : (replaceAtOnce backup (copy path.text)).run asked = .ok () copied)
      (still : copied.Unmoved logged)
      (writes : (replaceAtOnce path (fillWith text encoding backup.text)).run logged = .ok () v) :
      SaveEnds path text suffix encoding w (.ok backup v)

/-- An explained action ends as the action does, up to how a file error is told. -/
theorem explain_cases (path : Path) (reason : FileError → SaveError) (action : Action Unit)
    (w : World) :
    (∃ v, action.run w = .ok () v ∧
      (explain (fun e => .save path.text (reason e)) action).run w = .ok () v) ∨
    ∃ cause failure v, action.run w = .error cause v ∧ Told path cause failure ∧
      (explain (fun e => .save path.text (reason e)) action).run w = .error failure v := by
  cases ends : action.run w with
  | ok value v => exact .inl ⟨v, rfl, Action.run_tryCatch_ok ends⟩
  | error cause v =>
    right
    cases cause with
    | file e => exact ⟨_, _, v, rfl, .wrapped e (reason e), Action.run_tryCatch_error ends⟩
    | _ => exact ⟨_, _, v, rfl, .asIs (by simp), Action.run_tryCatch_error ends⟩

theorem save_ends (path : Path) (text suffix encoding : Text) (w : World) :
    SaveEnds path text suffix encoding w ((save path text suffix encoding).run w) := by
  unfold save
  cases named : pathFor path suffix with
  | error e => exact .stopped (.naming named) (.asIs (by simp))
  | ok backup =>
    simp only [Action.ofExcept, pure_bind]
    rw [EStateM.run_bind]
    have looks := isTaken_ensures w backup.text
    unfold Action.Ensures at looks
    cases asks : (isTaken backup.text).run w with
    | error failure asked => simp [asks] at looks
    | ok taken asked =>
      rw [asks] at looks
      obtain ⟨unmoved, tells⟩ := looks
      cases taken with
      | true => exact .taken named tells unmoved
      | false =>
        replace tells : w.Sees → ¬Occupied w backup.text := tells
        simp only [Bool.false_eq_true, ↓reduceIte, EStateM.run_bind]
        obtain ⟨copied, copies, explained⟩ | ⟨cause, failure, v, fails, told, explained⟩ :=
          explain_cases path (.notCopied backup.text)
            (replaceAtOnce backup (copy path.text)) asked
        · rw [explained]
          dsimp only
          cases logs : (Action.log .debug ["Backed up ", path.text, " to ", backup.text]).run
              copied with
          | error failure v => cases logs
          | ok done logged =>
            have still : copied.Unmoved logged := (Action.log_ensures copied _ _).of_ok logs
            dsimp only
            obtain ⟨v, writes, explained⟩ | ⟨cause, failure, v, fails, told, explained⟩ :=
              explain_cases path (.notWritten path.text backup.text)
                (replaceAtOnce path (fillWith text encoding backup.text)) logged
            · rw [explained]
              exact .done named tells unmoved copies still writes
            · rw [explained]
              exact .stopped (.writing named tells unmoved copies still fails) told
        · rw [explained]
          exact .stopped (.copying named tells unmoved fails) told

theorem copyAside_ensures (closed : w.tree.Closed) (unmoved : w.Unmoved v) (path backup : Path) :
    (replaceAtOnce backup (copy path.text)).Ensures v
      (fun _ u => (∃ place data mode,
        (∃ target, Leads w path.text target (.file data mode)) ∧
        Placed w u backup.text place data mode) ∧ w.Passed u (Drafting w backup) ∧
        ∃ n, ∃ k < greatestAttempts, RoomFor w backup (w.draws n k))
      (fun _ u => Halted w u backup ∧ w.Passed u (Drafting w backup)) := by
  refine replaceAtOnce_ensures closed unmoved backup _ _ fun temporary v place draft => ?_
  refine (copy_ensures closed draft path.text).mono ?_ fun _ _ stuck => stuck.1
  rintro _ u ⟨target, data, mode, leads, filled⟩
  exact ⟨data, mode, ⟨target, leads⟩, filled⟩

theorem writeAnew_ensures (closed : w.tree.Closed) (unmoved : w.Unmoved v) (path : Path)
    (text encoding : Text) {like : Text} {likePlace : Location} {likeData : Bytes} {likeMode : Nat}
    (likeFound : w.find like = .ok ⟨likePlace, some (.file likeData likeMode)⟩) :
    (replaceAtOnce path (fillWith text encoding like)).Ensures v
      (fun _ u => (∃ place bytes, Passable encoding ∧ w.Writes encoding text bytes ∧
        Placed w u path.text place bytes likeMode) ∧ w.Passed u (Drafting w path) ∧
        ∃ n, ∃ k < greatestAttempts, RoomFor w path (w.draws n k))
      (fun _ u => Halted w u path ∧ w.Passed u (Drafting w path)) := by
  refine (replaceAtOnce_ensures closed unmoved path (fillWith text encoding like)
    (fun bytes mode => mode = likeMode ∧ Passable encoding ∧ w.Writes encoding text bytes)
    fun temporary v place draft => ?_).mono ?_ fun _ _ restored => restored
  · refine (fillWith_ensures draft likeFound text encoding).mono ?_ fun _ _ stuck => stuck.1
    rintro _ u ⟨passable, bytes, writes, filled⟩
    exact ⟨bytes, likeMode, ⟨rfl, passable, writes⟩, filled⟩
  · rintro _ v ⟨⟨place, bytes, _, ⟨rfl, passable, writes⟩, placed⟩, passed⟩
    exact ⟨⟨place, bytes, passable, writes, placed⟩, passed⟩

/-- A save has been done: the copy stands where nothing stood and holds what the path led to, the
new text stands where the path itself stood, and nothing else has changed. -/
structure Saved (path backup : Path) (text encoding : Text) (w v : World)
    (copyPlace place : Location) (data bytes : Bytes) (mode : Nat) : Prop where
  written : isPath backup.text = true
  free : w.find backup.text false = .ok ⟨copyPlace, none⟩
  present : ∃ e, w.find path.text false = .ok ⟨place, some e⟩
  leads : ∃ target, w.find path.text = .ok ⟨target, some (.file data mode)⟩
  writes : w.Writes encoding text bytes
  copy : v.find backup.text false = .ok ⟨copyPlace, some (.file data mode)⟩
  anew : v.find path.text false = .ok ⟨place, some (.file bytes mode)⟩
  tree : v.tree.get? = Function.update
    (Function.update w.tree.get? copyPlace (some (.file data mode))) place (some (.file bytes mode))
  setting : v.setting = w.setting
  closed : v.tree.Closed

/-- What a save that was stopped can leave behind: nothing, or a complete copy. -/
inductive Stopped (path : Path) (suffix : Text) (w v : World) : Prop
  | untouched (tree : v.tree.get? = w.tree.get?) (setting : v.setting = w.setting)
  | copied {backup : Path} {copyPlace target : Location} {data : Bytes} {mode : Nat}
      (named : pathFor path suffix = .ok backup)
      (leads : w.find path.text = .ok ⟨target, some (.file data mode)⟩)
      (added : Added w v backup.text copyPlace data mode)

/-- A path to something leads to it after one more file has been made. -/
theorem present_of_find {target : Location} {e : Entry} {place : Location}
    (leads : w.find path.text = .ok ⟨target, some e⟩)
    (places : lastPlace w path.text = .ok place) :
    ∃ e, w.find path.text false = .ok ⟨place, some e⟩ := by
  have finds := find_of_lastPlace places
  cases entry : w.tree.get? place with
  | some e => exact ⟨e, by rw [finds, entry]⟩
  | none =>
    rw [entry] at finds
    have led : w.find path.text = _ := find_of_unfollowed finds (by simp)
    rw [leads] at led
    cases led

/-- The second step of a save, after the copy has been made. -/
theorem saved_of_placed {copied : World} {copyPlace target place : Location} {data bytes : Bytes}
    {mode : Nat} (leads : w.find path.text = .ok ⟨target, some (.file data mode)⟩)
    (added : Added w copied backup.text copyPlace data mode) (written : isPath backup.text = true)
    (places : lastPlace w backup.text = .ok copyPlace) (closed : copied.tree.Closed)
    (writes : w.Writes encoding text bytes)
    (placed : Placed copied v path.text place bytes mode) :
    Saved path backup text encoding w v copyPlace place data bytes mode := by
  have placesBefore : lastPlace w path.text = .ok place :=
    lastPlace_transfer added.setting.symm added.passages.symm placed.places
  obtain ⟨e, present⟩ := present_of_find leads placesBefore
  have elsewhere : copyPlace ≠ place := by
    rintro rfl
    have entry := entry_of_find present
    rw [added.absent] at entry
    cases entry
  have ends : copied.tree.LeadsToEnd place :=
    leadsToEnd_of_find placed.places (added.find_on leads) (by simp)
  refine ⟨written, added.free, ⟨e, present⟩, ⟨target, leads⟩, writes, ?_, ?_, ?_, ?_,
    placed.around closed⟩
  · have copyPlaces := placed.lastPlace ends
      (lastPlace_transfer added.setting added.passages places)
    rw [find_of_lastPlace copyPlaces, placed.tree, Function.update_of_ne elsewhere, added.entry]
  · rw [find_of_lastPlace (placed.lastPlace ends placed.places), placed.tree, Function.update_self]
  · rw [placed.tree, added.tree]
  · exact placed.setting.trans added.setting

/-- What a save that was stopped can leave behind besides: a temporary file that could not be
removed. -/
inductive LeftOff (path : Path) (suffix : Text) (w v : World) : Prop
  | early {target : Path} (halted : Halted w v target)
  | late {backup : Path} {copied : World} {copyPlace target : Location} {data : Bytes} {mode : Nat}
      (named : pathFor path suffix = .ok backup)
      (leads : w.find path.text = .ok ⟨target, some (.file data mode)⟩)
      (written : isPath backup.text = true)
      (added : Added w copied backup.text copyPlace data mode) (halted : Halted copied v path)

theorem LeftOff.stopped (left : LeftOff path suffix w v) (clears : w.Clears) :
    Stopped path suffix w v := by
  cases left with
  | early halted => exact .untouched (halted.cleared clears) halted.setting
  | late named leads _ added halted =>
    have tree := halted.cleared ((clears_of_setting added.setting).mpr clears)
    exact .copied named leads
      ⟨added.free, by rw [tree, added.tree], halted.setting.trans added.setting⟩

/-- Whatever the file system refuses, a save does all of its work or leaves at most a copy, as long
as it can see whether there is one. -/
theorem save_ensures (closed : w.tree.Closed) (sees : w.Sees) (path : Path)
    (text suffix encoding : Text) :
    (save path text suffix encoding).Ensures w
      (fun backup v => pathFor path suffix = .ok backup ∧
        ∃ copyPlace place data bytes mode,
          Saved path backup text encoding w v copyPlace place data bytes mode)
      (fun _ v => LeftOff path suffix w v) := by
  have ends := save_ends path text suffix encoding w
  unfold Action.Ensures
  generalize (save path text suffix encoding).run w = result at ends ⊢
  cases ends with
  | taken _ _ unmoved => exact .early (.of_unmoved unmoved path)
  | stopped fails told =>
    cases fails with
    | naming => exact .early (.of_unmoved (.refl w) path)
    | copying named free unmoved fails =>
      exact .early ((copyAside_ensures closed unmoved path _).of_error fails).1
    | writing named free unmoved copies still fails =>
      obtain ⟨⟨copyPlace, data, mode, ⟨target, -, leads⟩, placed⟩, -⟩ :=
        (copyAside_ensures closed unmoved path _).of_ok copies
      have added := placed.added (free sees)
      obtain ⟨halted, -⟩ := (writeAnew_ensures (placed.around closed) still path text encoding
        (added.found true)).of_error fails
      exact .late named leads placed.written added halted
  | done named free unmoved copies still writes =>
    obtain ⟨⟨copyPlace, data, mode, ⟨target, -, leads⟩, placed⟩, -⟩ :=
      (copyAside_ensures closed unmoved path _).of_ok copies
    have added := placed.added (free sees)
    obtain ⟨⟨place, bytes, -, encodes, placedAnew⟩, -⟩ :=
      (writeAnew_ensures (placed.around closed) still path text encoding
        (added.found true)).of_ok writes
    exact ⟨named, copyPlace, place, data, bytes, mode, saved_of_placed leads added placed.written
      placed.places (placed.around closed) ((writes_of_setting added.setting).mp encodes)
      placedAnew⟩

namespace Stopped

theorem find_on (stopped : Stopped path suffix w v) {other : Text} {place : Location} {e : Entry}
    (finds : w.find other false = .ok ⟨place, some e⟩) :
    v.find other false = .ok ⟨place, some e⟩ := by
  cases stopped with
  | untouched tree setting =>
    have onward := find_transfer setting (.of_get? tree) finds
    have entry := entry_of_find finds
    rwa [tree, ← entry] at onward
  | copied _ _ added => exact added.find_on finds

/-- A path at which nothing stands stays so as well. -/
theorem find_on_path (stopped : Stopped path suffix w v) {found : Found}
    (finds : w.find path.text false = .ok found) : v.find path.text false = .ok found := by
  obtain ⟨place, entry⟩ := found
  cases entry with
  | some e => exact stopped.find_on finds
  | none =>
    cases stopped with
    | untouched tree setting =>
      have onward := find_transfer setting (.of_get? tree) finds
      have entry := entry_of_find finds
      rwa [tree, ← entry] at onward
    | copied _ leads _ =>
      have led : w.find path.text = _ := find_of_unfollowed finds (by simp)
      rw [leads] at led
      cases led

end Stopped

/-- As long as a save can see whether there is a copy already and can remove its temporary files: if
it returns, it has put a copy where nothing stood and the new text where the path stood; if it
raises a failure, it leaves the file as it was and at most one more file, a complete copy. A copy
that was there already and every file error of a step are told with the path. The new text is all of
its encoding exactly if nothing is needed to close it. -/
theorem save_atomic (w : World) (closed : w.tree.Closed) (sees : w.Sees) (clears : w.Clears)
    (path : Path) (text suffix encoding : Text) :
    (save path text suffix encoding).Ensures w
      (fun backup v => pathFor path suffix = .ok backup ∧
        ∃ copyPlace place data bytes mode,
          Saved path backup text encoding w v copyPlace place data bytes mode ∧
          ∀ codec encoded, w.codec? encoding = some codec → codec.encode text = .ok encoded →
            bytes = encoded.body ∧ (bytes = encoded.whole ↔ encoded.closing = []))
      (fun failure v =>
        Stopped path suffix w v ∧
        (∀ found, w.find path.text false = .ok found → v.find path.text false = .ok found) ∧
        (∀ other place e, w.find other false = .ok ⟨place, some e⟩ →
          v.find other false = .ok ⟨place, some e⟩) ∧
        ((∃ backup, pathFor path suffix = .ok backup ∧ Occupied w backup.text ∧
            failure = .save path.text (.taken backup.text) ∧ v.tree = w.tree) ∨
          ∃ cause, StepFails path text suffix encoding w cause v ∧ Told path cause failure)) := by
  have outcome := save_ensures closed sees path text suffix encoding
  have ends := save_ends path text suffix encoding w
  unfold Action.Ensures at outcome ⊢
  generalize (save path text suffix encoding).run w = result at outcome ends ⊢
  cases ends with
  | taken named occupied unmoved =>
    have stopped := outcome.stopped clears
    exact ⟨stopped, fun _ => stopped.find_on_path, fun _ _ _ => stopped.find_on,
      .inl ⟨_, named, occupied, rfl, unmoved.tree⟩⟩
  | stopped fails told =>
    have stopped := outcome.stopped clears
    exact ⟨stopped, fun _ => stopped.find_on_path, fun _ _ _ => stopped.find_on,
      .inr ⟨_, fails, told⟩⟩
  | done =>
    obtain ⟨named, copyPlace, place, data, bytes, mode, saved⟩ := outcome
    refine ⟨named, copyPlace, place, data, bytes, mode, saved, ?_⟩
    intro codec encoded known encodes
    exact saved.writes.body_and_whole known encodes

/-- A directory with a link `x` to a file `y`. -/
def linked : World where
  tree := ⟨[([[120]], .link [121]), ([[121]], .file [110] 0o644)]⟩

theorem save_atomic_linked : linked.tree.Closed ∧ linked.Sees ∧ linked.Clears ∧
    ∃ backup v copyPlace place data bytes mode,
      (save (Path.ofText "/x") "m" "-original" "utf-8").run linked = .ok backup v ∧
      Saved (Path.ofText "/x") backup "m" "utf-8" linked v copyPlace place data bytes mode := by
  have closed : linked.tree.Closed := closed_of_entries (by decide)
  refine ⟨closed, fun _ _ => rfl, fun _ _ => rfl, ?_⟩
  have ends :
      ((save (Path.ofText "/x") "m" "-original" "utf-8").returned? linked).isSome = true := by
    decide +kernel
  obtain ⟨p, returned⟩ := Option.isSome_iff_exists.mp ends
  have returns := Action.run_of_returned? returned
  obtain ⟨-, copyPlace, place, data, bytes, mode, saved, -⟩ :=
    (save_atomic linked closed (fun _ _ => rfl) (fun _ _ => rfl) _ _ _ _).of_ok returns
  exact ⟨p.1, p.2, copyPlace, place, data, bytes, mode, returns, saved⟩

theorem codec?_iso2022Jp (known : w.codecs = Iso2022Jp.codec?) :
    w.codec? "iso2022_jp" = some Iso2022Jp.codec := by
  have own : Encoding.ofName? "iso2022_jp" = none := by decide +kernel
  have named : Encoding.normalizeName "iso2022_jp" = ("iso2022_jp" : Text) := by decide +kernel
  rw [World.codec?, own, known]
  dsimp only [Iso2022Jp.codec?]
  rw [if_pos (Or.inl named)]

/-- A yen sign is written in ISO-2022-JP without the bytes that would close it. -/
theorem closing_left_out : ∃ codec encoded backup v,
    linked.codec? "iso2022_jp" = some codec ∧ codec.encode "¥" = .ok encoded ∧
    (save (Path.ofText "/y") "¥" "-original" "iso2022_jp").run linked = .ok backup v ∧
    v.tree.get? [[121]] = some (.file encoded.body 0o644) ∧ encoded.body ≠ encoded.whole := by
  have written : ((save (Path.ofText "/y") "¥" "-original" "iso2022_jp").returned? linked).map
      (fun p => p.2.tree.get? [[121]]) = some (some (.file [0x1B, 0x28, 0x4A, 0x5C] 0o644)) := by
    decide +kernel
  have codec := codec?_iso2022Jp (w := linked) rfl
  generalize linked = w at written codec ⊢
  obtain ⟨p, returns, live⟩ := Option.map_eq_some_iff.mp written
  exact ⟨_, ⟨[0x1B, 0x28, 0x4A, 0x5C], [0x1B, 0x28, 0x42]⟩, p.1, p.2, codec, by decide +kernel,
    Action.run_of_returned? returns, live, by decide⟩

end Renewal.Backup
