import Renewal.Proofs.JsonReading
import Renewal.Proofs.SettingsMerge
import Renewal.Proofs.Utf8
import Renewal.Proofs.Walk

/-! # What becomes of a settings file

A settings file that is absent, that cannot be opened or that is malformed has no effect, and a file
that is a JSON document gives its value. But not every file is harmless: one that is not in UTF-8
stops the program, and so does one whose integers are too long or whose values are nested too deep
(`Settings.settings_file`).
-/

namespace Renewal

namespace FileSystem

variable {w : World} {path : Text} {place : Location} {e : Entry} {bytes bytes' : Bytes}

/-- What is read from an entry that can be opened; a pipe has nothing to read. -/
def content? : Entry → Option Bytes
  | .directory => none
  | .file data _ => some data
  | .link _ | .pipe => some []

/-- A path can be opened for reading, and the bytes are read. -/
structure Opens (w : World) (path : Text) (bytes : Bytes) : Prop where
  intact : w.faults w.clock (.openRead path) = none
  leads : ∃ place e, Leads w path place e ∧ content? e = some bytes

theorem Opens.unique (opens : Opens w path bytes) (opens' : Opens w path bytes') :
    bytes' = bytes := by
  obtain ⟨place, e, leads, content⟩ := opens.leads
  obtain ⟨place', e', leads', content'⟩ := opens'.leads
  cases leads.finds.symm.trans leads'.finds
  exact Option.some.inj (content'.symm.trans content)

/-- An entry is read if it can be opened, and else there is a system error. -/
theorem read_ensures (leads : Leads w path place e) :
    (read path).Ensures w (fun bytes v => v.nesting = w.nesting ∧ Opens w path bytes)
      (fun failure _ => (∃ e, failure = .file e) ∧ ∀ bytes, ¬Opens w path bytes) := by
  unfold read guardFault Action.fault?
  rw [Action.ensures_bind, Action.ensures_bind, Action.ensures_modifyGet]
  dsimp only
  cases fault : w.faults w.clock (.openRead path) with
  | some errno =>
    refine ⟨⟨_, rfl⟩, fun bytes opens => ?_⟩
    cases fault.symm.trans opens.intact
  | none =>
    have finds : World.find { w with clock := w.clock + 1 } path = .ok ⟨place, some e⟩ :=
      leads.finds
    unfold fileAt locate guardPath
    simp only [leads.written, if_true, Action.ensures_bind, Action.ensures_pure,
      Action.ensures_get, finds]
    cases e with
    | directory =>
      refine ⟨⟨_, rfl⟩, fun bytes opens => ?_⟩
      obtain ⟨place', e', leads', content⟩ := opens.leads
      cases leads.finds.symm.trans leads'.finds
      cases content
    | file data mode => exact ⟨rfl, fault, place, _, leads, rfl⟩
    | link target => exact ⟨rfl, fault, place, _, leads, rfl⟩
    | pipe => exact ⟨rfl, fault, place, _, leads, rfl⟩

end FileSystem

namespace Settings

open FileSystem Json Utf8

variable {w : World} {bytes : Bytes} {t : Text} {j : Json}

/-- What the bytes of a settings file give where values may be nested so deep: a value, nothing if
they are malformed, or a failure. -/
def ofBytes (nesting : Nat) (bytes : Bytes) : Except Failure (Option Json) :=
  match Encoding.decodeStrict bytes with
  | .error e => .error (.decode e)
  | .ok t =>
    match Json.read t.unifyNewlines nesting with
    | .ok j => .ok (some j)
    | .error e => if isHarmless (.json e) then .ok none else .error (.json e)

/-- What comes of a settings file at a path. One that cannot be opened counts as none. -/
def Gives (w : World) (path : Text) (outcome : Except Failure (Option Json)) : Prop :=
  (outcome = .ok none ∧ ∀ bytes, ¬Opens w path bytes) ∨
    ∃ bytes, Opens w path bytes ∧ ofBytes w.nesting bytes = outcome

theorem Gives.unique {outcome outcome' : Except Failure (Option Json)} {path : Text}
    (gives : Gives w path outcome) (gives' : Gives w path outcome') : outcome' = outcome := by
  rcases gives with ⟨rfl, closed⟩ | ⟨bytes, opens, rfl⟩
  · rcases gives' with ⟨rfl, -⟩ | ⟨bytes, opens, -⟩
    · rfl
    · exact absurd opens (closed bytes)
  · rcases gives' with ⟨-, closed⟩ | ⟨bytes', opens', rfl⟩
    · exact absurd opens (closed bytes)
    · rw [opens.unique opens']

theorem readFile?_ensures (w : World) (path : Path) :
    (readFile? path).Ensures w (fun file _ => Gives w path.text (.ok file))
      (fun failure _ =>
        Gives w path.text (if isHarmless failure then .ok none else .error failure)) := by
  unfold readFile?
  rw [Action.ensures_bind]
  refine (entry?_ensures w path.text).mono ?_ ?_
  rotate_left
  · intro failure v ⟨_, refuses⟩
    have closed : ∀ bytes, ¬Opens w path.text bytes := by
      intro bytes opens
      obtain ⟨place, e, leads, -⟩ := opens.leads
      exact refuses.not_found _ leads.finds
    obtain ⟨errno, rfl, -⟩ := refuses
    exact .inl ⟨rfl, closed⟩
  rintro entry w ⟨rfl, -, tells⟩
  cases entry with
  | none =>
    refine .inl ⟨rfl, fun bytes opens => ?_⟩
    obtain ⟨place, e, leads, -⟩ := opens.leads
    cases (tells e).mpr ⟨leads.written, place, leads.finds⟩
  | some e =>
    obtain ⟨written, place, finds⟩ := (tells e).mp rfl
    rw [if_neg (by simp), Action.ensures_bind]
    refine (read_ensures ⟨written, finds⟩).mono ?_ ?_
    rotate_left
    · rintro _ _ ⟨⟨e, rfl⟩, closed⟩
      exact .inl ⟨rfl, closed⟩
    intro bytes v ⟨sameNesting, opens⟩
    rw [Action.ensures_bind]
    cases decoded : Encoding.decodeStrict bytes with
    | error e => exact .inr ⟨bytes, opens, by rw [ofBytes, decoded]; rfl⟩
    | ok t =>
      refine Action.ensures_bind.mpr (Action.ensures_get.mpr ?_)
      rw [sameNesting, Action.ensures_bind]
      cases reads : Json.read t.unifyNewlines w.nesting with
      | error e | ok j => exact .inr ⟨bytes, opens, by rw [ofBytes, decoded]; simp only [reads]⟩

theorem loadFile_ensures (w : World) (path : Path) :
    (loadFile path).Ensures w (fun file _ => Gives w path.text (.ok file))
      (fun failure _ => Gives w path.text (.error failure)) := by
  unfold loadFile
  rw [Action.ensures_tryCatch]
  refine (readFile?_ensures w path).mono (fun _ _ gives => gives) ?_
  intro failure v gives
  rw [Action.ensures_ite]
  constructor
  · intro harmless
    rw [if_pos harmless] at gives
    rw [Action.ensures_bind]
    refine (Action.log_ensures v _ _).mono ?_ fun _ _ never => never.elim
    intro _ v _
    rw [Action.ensures_bind]
    exact (Action.log_ensures v _ _).mono (fun _ _ _ => gives) fun _ _ never => never.elim
  · intro harmful
    rw [if_neg harmful] at gives
    exact gives

/-- The path of the settings file for a directory. -/
def filePath (root : Text) : Path :=
  (Path.ofText root).child fileName

/-- Loading the settings for a directory returns those of the environment and a file. -/
def Loads (root : Text) (w : World) (file : Option Json) : Prop :=
  ∃ v, (load root).run w = .ok (merged w.environment file) v

/-- Loading the settings for a directory raises a failure. -/
def Stops (root : Text) (w : World) (failure : Failure) : Prop :=
  ∃ v, (load root).run w = .error failure v

/-- What comes of the file is what comes of loading the settings. -/
theorem loads_or_stops (root : Text) (w : World) :
    (∀ file, Gives w (filePath root).text (.ok file) → Loads root w file) ∧
      ∀ failure, Gives w (filePath root).text (.error failure) → Stops root w failure := by
  have loads := load_ensures root w
  have reads := loadFile_ensures w (filePath root)
  unfold Loads Stops
  cases ends : (load root).run w with
  | error failure v =>
    have raised := reads.of_error (loads.of_error ends)
    constructor
    · intro file gives
      cases gives.unique raised
    · intro failure gives
      cases gives.unique raised
      exact ⟨v, rfl⟩
  | ok settings v =>
    obtain ⟨file, u, loaded, rfl⟩ := loads.of_ok ends
    have returned := reads.of_ok loaded
    constructor
    · intro file gives
      cases gives.unique returned
      exact ⟨v, rfl⟩
    · intro failure gives
      cases gives.unique returned

theorem ofBytes_of_not_spelled (garbled : ∀ t, ¬Spelled bytes t) :
    ∃ e, ofBytes w.nesting bytes = .error (.decode e) := by
  unfold ofBytes
  cases decoded : Encoding.decodeStrict bytes with
  | error e => exact ⟨e, rfl⟩
  | ok t => exact absurd (decodeStrict_eq_ok_iff.mp decoded) (garbled t)

/-- A document within the limits gives its value. -/
theorem ofBytes_of_fits (spelled : Spelled bytes t) (fits : Fits w.nesting t.unifyNewlines j) :
    ofBytes w.nesting bytes = .ok (some j) := by
  rw [ofBytes, decodeStrict_eq_ok_iff.mpr spelled]
  simp only [read_eq_ok_iff.mpr fits]

/-- A text that is not read gives nothing if it is malformed, and then it is no document. -/
theorem ofBytes_of_not_fits (spelled : Spelled bytes t)
    (beyond : ∀ j, ¬Fits w.nesting t.unifyNewlines j) :
    (ofBytes w.nesting bytes = .ok none ∧ ∀ j, ¬Document t.unifyNewlines j) ∨
      ∃ e, ofBytes w.nesting bytes = .error (.json e) ∧ Immense w.nesting t.unifyNewlines := by
  rw [ofBytes, decodeStrict_eq_ok_iff.mpr spelled]
  dsimp only
  cases reads : Json.read t.unifyNewlines w.nesting with
  | ok j => exact absurd (read_eq_ok_iff.mp reads) (beyond j)
  | error e =>
    rcases read_error_cases reads with ⟨f, position, rfl⟩ | ⟨limit, immense⟩
    · refine .inl ⟨rfl, fun j isDocument => ?_⟩
      rcases isDocument.read_cases with read | ⟨e, read⟩ | ⟨inside, read⟩
      all_goals cases reads.symm.trans read
    · refine .inr ⟨e, ?_, immense⟩
      cases e with
      | malformed f position source => exact absurd rfl (limit f position source)
      | integer e | tooDeep inside => rfl

/-- A settings file that cannot be opened counts as none. One that is not in UTF-8 stops the
program. Of the others, a JSON document gives its value if it is within the limits of the reader,
and else it stops the program; and a text that is no document counts as none, unless it is so
immense that a limit is met first. -/
theorem settings_file (root : Text) (w : World) :
    ((∀ bytes, ¬Opens w (filePath root).text bytes) → Loads root w none) ∧
    ∀ bytes, Opens w (filePath root).text bytes →
      ((∀ t, ¬Spelled bytes t) → ∃ e, Stops root w (.decode e)) ∧
      ∀ t, Spelled bytes t →
        (∀ j, Fits w.nesting t.unifyNewlines j →
          Document t.unifyNewlines j ∧ Loads root w (some j)) ∧
        ((∀ j, ¬Fits w.nesting t.unifyNewlines j) →
          ((∀ j, ¬Document t.unifyNewlines j) ∧ Loads root w none) ∨
          (Immense w.nesting t.unifyNewlines ∧ ∃ e, Stops root w (.json e))) := by
  obtain ⟨loads, stops⟩ := loads_or_stops root w
  refine ⟨fun closed => loads none (.inl ⟨rfl, closed⟩), fun bytes opens => ⟨?_, ?_⟩⟩
  · intro garbled
    obtain ⟨e, fails⟩ := ofBytes_of_not_spelled garbled
    exact ⟨e, stops _ (.inr ⟨bytes, opens, fails⟩)⟩
  · intro t spelled
    constructor
    · intro j fits
      have gives := ofBytes_of_fits spelled fits
      exact ⟨.of_read (read_eq_ok_iff.mpr fits), loads _ (.inr ⟨bytes, opens, gives⟩)⟩
    · intro beyond
      rcases ofBytes_of_not_fits spelled beyond with ⟨gives, noDocument⟩ | ⟨e, fails, immense⟩
      · exact .inl ⟨noDocument, loads _ (.inr ⟨bytes, opens, gives⟩)⟩
      · exact .inr ⟨immense, e, stops _ (.inr ⟨bytes, opens, fails⟩)⟩

/-- A directory with a settings file that has some bytes. -/
def holding (bytes : Bytes) : World where
  tree := ⟨[([Encoding.nameBytes fileName], .file bytes 0o644)]⟩

theorem opens_holding (finds : (holding bytes).find (filePath "/").text =
    .ok ⟨[Encoding.nameBytes fileName], some (.file bytes 0o644)⟩) :
    Opens (holding bytes) (filePath "/").text bytes :=
  ⟨rfl, _, _, ⟨by decide +kernel, finds⟩, rfl⟩

/-- An object without its last brace. -/
def unclosed : Text := "\x7b\"scan\": \x7b\x7d"

/-- A file that ends before its last brace counts as none. -/
theorem settings_file_unclosed :
    Opens (holding (Encoding.nameBytes unclosed)) (filePath "/").text
      (Encoding.nameBytes unclosed) ∧
    Spelled (Encoding.nameBytes unclosed) unclosed ∧
    Loads "/" (holding (Encoding.nameBytes unclosed)) none := by
  have opens := opens_holding (show
    (holding (Encoding.nameBytes unclosed)).find (filePath "/").text = _ by decide +kernel)
  have scalar : ∀ c ∈ unclosed, c.isSurrogate = false := by decide
  have spelled : Spelled (Encoding.nameBytes unclosed) unclosed :=
    ⟨scalar, nameBytes_of_scalar scalar⟩
  have unread : (Json.read unclosed.unifyNewlines).toOption.isSome = false := by decide +kernel
  have refused : ∀ j, ¬Fits nestingLimit unclosed.unifyNewlines j := by
    intro j fits
    rw [read_eq_ok_iff.mpr fits] at unread
    cases unread
  refine ⟨opens, spelled, ?_⟩
  rcases (((settings_file "/" _).2 _ opens).2 _ spelled).2 refused with ⟨-, loads⟩ | ⟨immense, -⟩
  · exact loads
  · have small : ¬Immense nestingLimit unclosed.unifyNewlines :=
      not_immense (by decide) (by decide)
    exact absurd immense small

/-- A file with one byte that is no character stops the program. -/
theorem garbled_file_stops :
    Opens (holding [0xFF]) (filePath "/").text [0xFF] ∧
      Stops "/" (holding [0xFF]) (.decode ⟨0xFF, 0, 1, "invalid start byte"⟩) := by
  have opens := opens_holding (show (holding [0xFF]).find (filePath "/").text = _ by decide +kernel)
  exact ⟨opens, (loads_or_stops _ _).2 _ (.inr ⟨_, opens, rfl⟩)⟩

end Settings

end Renewal
