import Renewal.Proofs.AtomicSave
import Renewal.Proofs.BackupPath

/-! # When a save returns

What a save needs is said by where paths lead and what can be encoded (`Backup.Ready`). A save that
returns shows that it was ready. The other way round, a save that is ready returns if no operation
is made to fail, there is room, and a name that is free is drawn for each temporary file
(`World.Calm`).
-/

namespace Renewal

open Renewal.Tree World FileSystem

namespace FileSystem

variable {w v : World} {place : Location}

/-- Two texts with one beginning that are equally long have last places in one directory. -/
theorem lastPlace_exchange {lead back back' : Text} (written : lead ≠ [])
    (uncut : Path.separator ∉ back) (uncut' : Path.separator ∉ back')
    (same : (Encoding.nameBytes back').length = (Encoding.nameBytes back).length)
    (long : 2 < (Encoding.nameBytes back).length)
    (places : lastPlace w (lead ++ back) = .ok place) :
    ∃ around, lastPlace w (lead ++ back') =
      .ok (around ++ [Encoding.nameBytes (Path.ending lead ++ back')]) := by
  have some : ∀ {t : Text}, 2 < (Encoding.nameBytes t).length → t ≠ [] := by
    rintro t long rfl
    simp [Encoding.nameBytes] at long
  obtain ⟨front, cut⟩ := Path.exists_pathNames_append lead
  obtain ⟨-, short, names, last, around, cut', -, fits, -, leads⟩ :=
    lastPlace_eq_ok_iff.mp places
  obtain ⟨rfl, sameLast⟩ := List.append_inj' ((cut back (some long) uncut).symm.trans cut') rfl
  obtain rfl := List.singleton_inj.mp sameLast
  have lengths : ∀ s : Text, (Encoding.nameBytes (s ++ back')).length =
      (Encoding.nameBytes (s ++ back)).length := by
    intro s
    rw [Encoding.nameBytes_append, Encoding.nameBytes_append, List.length_append,
      List.length_append, same]
  have start : ∀ t, pathStart w.directory (Encoding.nameBytes (lead ++ t)) =
      pathStart w.directory (Encoding.nameBytes lead) := by
    intro t
    simp only [pathStart, head?_nameBytes_iff, List.head?_append_of_ne_nil _ written]
  have longer : 2 < (Encoding.nameBytes (Path.ending lead ++ back')).length := by
    rw [Encoding.nameBytes_append, List.length_append]
    omega
  refine ⟨around, lastPlace_eq_ok_iff.mpr ⟨?_, by rwa [lengths], front, _, around,
    cut back' (some (same ▸ long)) uncut', ⟨?_, ?_⟩, by rwa [lengths], rfl, ?_⟩⟩
  · exact mt nameBytes_eq_nil_iff.mp (by simp [written])
  · intro dotted
    simp [dotted, dot] at longer
  · intro dotted
    simp [dotted, dotDot] at longer
  · rw [start] at leads ⊢
    exact leads

/-- Nothing stops a temporary file from taking a place where no directory is. -/
theorem Draft.canReplace {path target : Text} {goal : Location} {data : Bytes} {mode : Nat}
    (draft : Draft w v path place data mode) (closed : w.tree.Closed)
    (faultless : w.faults = Faults.none) (written : isPath path = true)
    (places : lastPlace w path = .ok place) (targetWritten : isPath target = true)
    (goals : lastPlace w target = .ok goal) (notDirectory : w.tree.get? goal ≠ some .directory) :
    CanReplace v path target := by
  have onward : ∀ {text l}, lastPlace w text = .ok l → lastPlace v text = .ok l :=
    lastPlace_transfer draft.setting draft.passages
  obtain ⟨around, last, rfl, directory⟩ := lastPlace_around places
  have closedNow : v.tree.Closed :=
    closed.update (by rw [draft.absent]; simp) (fun _ => directory) draft.tree
  obtain ⟨around', last', rfl, directory'⟩ := lastPlace_around goals
  refine ⟨by rw [faults_of_setting draft.setting, faultless], written, targetWritten, _,
    replaced_eq_ok_iff.mpr ⟨_, _, onward places, onward goals, ?_, rfl⟩⟩
  apply mayReplace_of_plain closedNow draft.entry (by simp)
  · exact (draft.passages.directory around').mpr directory'
  · exact fun isDirectory => notDirectory ((draft.passages.directory _).mp isDirectory)

end FileSystem

/-- Letters as they are drawn for the names of temporary files. -/
structure Lettered (letters : Text) : Prop where
  eight : (Encoding.nameBytes letters).length = 8
  uncut : Path.separator ∉ letters
  written : isPath letters = true

/-- The bytes with which the name of a temporary file ends. -/
def temporaryEnding (letters : Text) : Bytes :=
  Encoding.nameBytes (letters ++ (".tmp" : Text))

/-- No operation is made to fail, and among the letters that are drawn for a temporary file there
are some with which no name ends yet. -/
structure World.Calm (w : World) : Prop where
  faultless : w.faults = Faults.none
  roomy : w.Roomy
  lettered : ∀ n, ∀ k < greatestAttempts, Lettered (w.draws n k)
  fresh : ∀ n, ∃ k < greatestAttempts, ∀ around name,
    (w.tree.get? (around ++ [name])).isSome → ¬temporaryEnding (w.draws n k) <:+ name

namespace Backup

variable {w v : World} {path backup target : Path} {text suffix encoding letters letters' : Text}

/-- The path of a temporary file begins in the same way, whichever letters are drawn. -/
theorem temporaryPath_lead (directory : Text) (target : Path) : ∃ lead : Text, lead ≠ [] ∧
    ∀ letters, temporaryPath directory target letters = lead ++ (letters ++ (".tmp" : Text)) := by
  unfold temporaryPath
  extract_lets around slash
  refine ⟨.concat [around, slash, ".", target.name, "."], ?_, fun letters => ?_⟩
  · simp only [Text.concat, List.flatten_cons, ne_eq, List.append_eq_nil_iff, not_and]
    intro _ _ dotted
    cases dotted
  · simp [Text.concat]

/-- A file can be made beside a target. -/
def HasRoom (w : World) (target : Path) : Prop :=
  ∃ letters, Lettered letters ∧ RoomFor w target letters

theorem HasRoom.transfer (setting : v.setting = w.setting) (same : SamePassages w.tree v.tree)
    (room : HasRoom w target) : HasRoom v target := by
  obtain ⟨letters, lettered, written, place, places⟩ := room
  refine ⟨letters, lettered, ?_⟩
  rw [RoomFor, directory_of_setting setting]
  exact ⟨written, place, lastPlace_transfer setting same places⟩

/-- Where a file can be made, it can be made with any letters. -/
theorem HasRoom.exchange (room : HasRoom w target) (lettered : Lettered letters) :
    isPath (temporaryPath (Location.text w.directory) target letters) = true ∧
      ∃ around front, lastPlace w (temporaryPath (Location.text w.directory) target letters) =
        .ok (around ++ [front ++ temporaryEnding letters]) := by
  obtain ⟨letters', lettered', written, place, places⟩ := room
  obtain ⟨lead, some, whole⟩ := temporaryPath_lead (Location.text w.directory) target
  have ending : ∀ {letters}, Lettered letters →
      Path.separator ∉ letters ++ (".tmp" : Text) ∧
        (Encoding.nameBytes (letters ++ (".tmp" : Text))).length = 12 := by
    intro letters lettered
    constructor
    · rw [List.mem_append, not_or]
      exact ⟨lettered.uncut, by decide⟩
    · rw [Encoding.nameBytes_append, List.length_append, lettered.eight]
      rfl
  rw [whole] at written places ⊢
  simp only [isPath, List.all_append, Bool.and_eq_true] at written ⊢
  refine ⟨⟨written.1, lettered.written, written.2.2⟩, ?_⟩
  obtain ⟨around, places⟩ := lastPlace_exchange some (ending lettered').1 (ending lettered).1
    ((ending lettered).2.trans (ending lettered').2.symm) (by rw [(ending lettered').2]; omega)
    places
  refine ⟨around, Encoding.nameBytes (Path.ending lead), ?_⟩
  rw [places, Encoding.nameBytes_append]
  rfl

/-- In a calm world a temporary file is made wherever there is room for it. -/
theorem HasRoom.canDraft (room : HasRoom w target) (calm : w.Calm) (n : Nat) :
    CanDraft w (temporaryPath (Location.text w.directory) target) (w.draws n) 0
      greatestAttempts := by
  constructor
  · intro k few
    obtain ⟨written, around, front, places⟩ := room.exchange (calm.lettered n k few)
    exact ⟨calm.roomy, written, _, find_of_lastPlace places⟩
  · obtain ⟨k, few, fresh⟩ := calm.fresh n
    obtain ⟨-, around, front, places⟩ := room.exchange (calm.lettered n k few)
    have absent : w.tree.get? (around ++ [front ++ temporaryEnding (w.draws n k)]) = none := by
      by_contra present
      exact fresh around _ (Option.isSome_iff_ne_none.mpr present) (List.suffix_append _ _)
    have finds := find_of_lastPlace places
    rw [absent] at finds
    exact ⟨k, few, Nat.zero_le k, _, finds⟩

/-- Replacing a file at once returns if the temporary file can be made, filled and moved. -/
theorem replaceAtOnce_returns (calm : w.Calm) (closed : w.tree.Closed) (unmoved : w.Unmoved v)
    (room : HasRoom w target) (written : isPath target.text = true) {goal : Location}
    (places : lastPlace w target.text = .ok goal)
    (notDirectory : w.tree.get? goal ≠ some .directory) {fill : Text → Action Unit}
    (fills : ∀ path u place, isPath path = true → Draft w u path place [] 0o600 →
      (fill path).Ensures u (fun _ u => ∃ data mode, Draft w u path place data mode)
        (fun _ _ => False)) :
    (replaceAtOnce target fill).Ensures v (fun _ _ => True) (fun _ _ => False) := by
  have draws : v.draws = w.draws := congrArg Setting.draws unmoved.setting
  unfold replaceAtOnce
  rw [Action.ensures_bind, Action.ensures_get, Action.ensures_bind,
    directory_of_setting unmoved.setting]
  refine (createTemporary_ensures v _).mono ?_ fun _ _ raised =>
    raised.2 (draws ▸ (room.canDraft calm v.clock).of_unmoved unmoved)
  intro temporary u made
  obtain ⟨⟨k, few, drawn⟩, asked, place, made⟩ := made
  have draft := made.since unmoved
  obtain ⟨-, around, front, temporaryAt⟩ := room.exchange (calm.lettered v.clock k few)
  rw [← draws, ← drawn] at temporaryAt
  have here : lastPlace w temporary = .ok place := by
    have found := draft.free.symm.trans (find_of_lastPlace temporaryAt)
    obtain ⟨rfl, -⟩ := Found.mk.inj (Except.ok.inj found)
    exact temporaryAt
  rw [Action.ensures_tryCatch, Action.ensures_bind]
  refine (fills temporary u place asked draft).mono ?_ fun _ _ => False.elim
  intro _ u filled
  obtain ⟨data, mode, filled⟩ := filled
  refine (replace_ensures u temporary target.text).mono (fun _ _ _ => trivial) ?_
  intro _ _ raised
  exact absurd (filled.canReplace closed calm.faultless asked here written places notDirectory)
    raised.2

/-- What a save needs: a place for the copy, where nothing is yet, a file to be copied, room for the
temporary files, and an encoding for the new text. -/
structure Ready (w : World) (path backup : Path) (text suffix encoding : Text) : Prop where
  named : pathFor path suffix = .ok backup
  free : ¬Occupied w backup.text
  copyWritten : isPath backup.text = true
  copyPlaces : ∃ place, lastPlace w backup.text = .ok place
  places : ∃ place, lastPlace w path.text = .ok place
  leads : ∃ place data mode, Leads w path.text place (.file data mode)
  copyRoom : HasRoom w backup
  room : HasRoom w path
  passable : Passable encoding
  encodes : ∃ bytes, w.Writes encoding text bytes

/-- A save that returns was ready. -/
theorem ready_of_save (closed : w.tree.Closed) (sees : w.Sees)
    (lettered : ∀ n, ∀ k < greatestAttempts, Lettered (w.draws n k))
    (saves : (save path text suffix encoding).run w = .ok backup v) :
    Ready w path backup text suffix encoding := by
  have ends := save_ends path text suffix encoding w
  rw [saves] at ends
  cases ends with
  | done named free unmoved copies still writes =>
    obtain ⟨⟨copyPlace, data, mode, ⟨target, leads⟩, placed⟩, -, n, k, few, copyRoom⟩ :=
      (copyAside_ensures closed unmoved path _).of_ok copies
    have added := placed.added (free sees)
    obtain ⟨⟨place, bytes, passable, encodes, anew⟩, -, n', k', few', room⟩ :=
      (writeAnew_ensures (placed.around closed) still path text encoding
        (added.found true)).of_ok writes
    have back := added.setting.symm
    have sameDraws := congrArg Setting.draws added.setting
    refine ⟨named, free sees, placed.written, ⟨_, placed.places⟩,
      ⟨_, lastPlace_transfer back added.passages.symm anew.places⟩, ⟨_, _, _, leads⟩,
      ⟨_, lettered _ k few, copyRoom⟩,
      HasRoom.transfer back added.passages.symm ⟨_, ?_, room⟩, passable,
      ⟨bytes, (writes_of_setting added.setting).mp encodes⟩⟩
    rw [show World.draws _ = w.draws from sameDraws]
    exact lettered _ k' few'

theorem copyAside_returns (calm : w.Calm) (closed : w.tree.Closed) (unmoved : w.Unmoved v)
    (ready : Ready w path backup text suffix encoding) :
    (replaceAtOnce backup (copy path.text)).Ensures v (fun _ _ => True) (fun _ _ => False) := by
  obtain ⟨place, places⟩ := ready.copyPlaces
  refine replaceAtOnce_returns calm closed unmoved ready.copyRoom ready.copyWritten places ?_ ?_
  · intro directory
    have finds := find_of_lastPlace places
    rw [directory] at finds
    exact ready.free ⟨ready.copyWritten, place, _, finds⟩
  · intro temporary v at' written draft
    refine (copy_ensures closed draft path.text).mono ?_ fun _ _ raised =>
      raised.2 ⟨calm.faultless, calm.roomy, written, ready.leads⟩
    intro _ u copied
    obtain ⟨-, data, mode, -, filled⟩ := copied
    exact ⟨data, mode, filled⟩

theorem writeAnew_returns (calm : w.Calm) (closed : w.tree.Closed) (unmoved : w.Unmoved v)
    (room : HasRoom w path)
    {target place likePlace : Location} {data likeData : Bytes} {mode likeMode : Nat}
    (leads : Leads w path.text target (.file data mode))
    (places : lastPlace w path.text = .ok place)
    (like : Leads w backup.text likePlace (.file likeData likeMode)) (passable : Passable encoding)
    (encodes : ∃ bytes, w.Writes encoding text bytes) :
    (replaceAtOnce path (fillWith text encoding backup.text)).Ensures v (fun _ _ => True)
      (fun _ _ => False) := by
  refine replaceAtOnce_returns calm closed unmoved room leads.written places ?_ ?_
  · intro directory
    have finds := find_of_lastPlace places
    rw [directory] at finds
    have led : w.find path.text = _ := find_of_unfollowed finds (by simp)
    cases leads.finds.symm.trans led
  · intro temporary v at' written draft
    refine (fillWith_ensures draft like.finds text encoding).mono ?_ fun _ _ raised =>
      raised.2 ⟨calm.faultless, calm.roomy, written, like.written, passable, encodes⟩
    intro _ u filled
    obtain ⟨-, bytes, -, filled⟩ := filled
    exact ⟨bytes, likeMode, filled⟩

/-- A name with the suffix of saved copies is none of a temporary file. -/
theorem not_temporaryEnding_saved {name : EntryName} (saved : suffixBytes <:+ name) :
    ¬temporaryEnding letters <:+ name := by
  intro temporary
  obtain ⟨front, rfl⟩ := saved
  obtain ⟨lead, same⟩ := temporary
  have last := congrArg List.getLast? same
  rw [temporaryEnding, Encoding.nameBytes_append, ← List.append_assoc,
    List.getLast?_append_of_ne_nil _ (by decide),
    List.getLast?_append_of_ne_nil _ (by decide)] at last
  exact absurd last (by decide)

end Backup

open Backup in
/-- A world stays calm as long as nothing but saved copies is added. -/
theorem World.Calm.of_names {w v : World} (calm : w.Calm) (setting : v.setting = w.setting)
    (names : ∀ around name, (v.tree.get? (around ++ [name])).isSome →
      (w.tree.get? (around ++ [name])).isSome ∨ suffixBytes <:+ name) : v.Calm := by
  have draws : v.draws = w.draws := congrArg Setting.draws setting
  refine ⟨by rw [faults_of_setting setting, calm.faultless],
    (roomy_of_setting setting).mpr calm.roomy, by rw [draws]; exact calm.lettered, fun n => ?_⟩
  obtain ⟨k, few, fresh⟩ := calm.fresh n
  rw [draws]
  refine ⟨k, few, fun around name present => ?_⟩
  rcases names around name present with before | saved
  · exact fresh around name before
  · exact not_temporaryEnding_saved saved

open Backup in
/-- A world is calm in which nothing fails and no name ends like that of a temporary file, where the
same letters are drawn for each. -/
theorem calm_of_drawn {w : World} (faultless : w.faults = Faults.none) (roomy : w.Roomy)
    (draws : ∀ n k, w.draws n k = "XXXXXXXX")
    (free : ∀ p ∈ w.tree.entries, ¬temporaryEnding "XXXXXXXX" <:+ p.1.getLast?.getD []) :
    w.Calm := by
  refine ⟨faultless, roomy, fun n k _ => ?_, fun n => ⟨0, by decide, fun around name present => ?_⟩⟩
  · rw [draws]
    exact ⟨by decide, by decide, by decide⟩
  · obtain ⟨e, entry⟩ := Option.isSome_iff_exists.mp present
    rw [draws]
    simpa using free _ (mem_entries_of_get? (by simp) entry)

namespace Backup

variable {w v : World} {path backup : Path} {text encoding : Text}

/-- The copy of a file has a name with the suffix. -/
theorem suffix_of_lastPlace (named : pathFor path defaultSuffix = .ok backup) {place : Location}
    (places : lastPlace w backup.text = .ok place) :
    ∃ around name, place = around ++ [name ++ suffixBytes] := by
  obtain ⟨-, -, rfl⟩ := pathFor_eq_ok named
  obtain ⟨-, around, rfl⟩ := last_of_lastPlace places
  rw [Path.ending_text (by simp), name_concat, Path.ending_append_uncut _ (by decide),
    Encoding.nameBytes_append]
  exact ⟨around, _, rfl⟩

/-- In a calm world a save that is ready returns. -/
theorem save_returns (calm : w.Calm) (closed : w.tree.Closed)
    (ready : Ready w path backup text defaultSuffix encoding) :
    (save path text defaultSuffix encoding).Ensures w (fun _ _ => True) (fun _ _ => False) := by
  have ends := save_ends path text defaultSuffix encoding w
  unfold Action.Ensures
  generalize (save path text defaultSuffix encoding).run w = result at ends ⊢
  cases ends with
  | done => trivial
  | taken named occupied _ =>
    cases ready.named.symm.trans named
    exact ready.free occupied
  | stopped fails told =>
    cases fails with
    | naming unnamed => cases ready.named.symm.trans unnamed
    | copying named free unmoved fails =>
      cases ready.named.symm.trans named
      exact (copyAside_returns calm closed unmoved ready).of_error fails
    | writing named free unmoved copies still fails =>
      cases ready.named.symm.trans named
      obtain ⟨⟨copyPlace, data, mode, ⟨target, leads⟩, placed⟩, -⟩ :=
        (copyAside_ensures closed unmoved path _).of_ok copies
      have added := placed.added ready.free
      obtain ⟨bytes, encodes⟩ := ready.encodes
      obtain ⟨place, places⟩ := ready.places
      obtain ⟨beside, name, rfl⟩ := suffix_of_lastPlace named placed.places
      have calmNow := calm.of_names added.setting fun around last present => by
        by_cases here : around ++ [last] = beside ++ [name ++ suffixBytes]
        · obtain ⟨-, sameLast⟩ := List.append_inj' here rfl
          exact .inr ⟨name, (List.singleton_inj.mp sameLast).symm⟩
        · rw [added.entry_of_ne here] at present
          exact .inl present
      exact (writeAnew_returns calmNow (placed.around closed) still
        (ready.room.transfer added.setting added.passages)
        ⟨leads.written, added.find_on leads.finds⟩
        (lastPlace_transfer added.setting added.passages places)
        ⟨ready.copyWritten, added.found true⟩ ready.passable
        ⟨bytes, (writes_of_setting added.setting).mpr encodes⟩).of_error fails

end Backup

end Renewal
