import Renewal.Proofs.EmittedLines

/-! # Comparisons that fail

Saved copies are compared with their files one after the other, and a comparison that fails does not
stop the others. Where a program compares them, what is recorded and emitted for a pair is told by
how the program has ended for that pair (`Backup.diff_outcomes_apart`). A program that was stopped
by a signal has a negative status, which is taken for success. What a program has printed before it
took too long is lost.
-/

namespace Renewal

open Renewal.Action World

namespace ProgramOutcome

/-- What a program has printed. -/
def output : ProgramOutcome → Text
  | .finished _ output _ | .expired _ output => output.readReplacing
  | .failed _ => []

/-- What a program that has ended by itself has printed as errors. -/
def errors : ProgramOutcome → Text
  | .finished _ _ errors => errors.readReplacing
  | .failed _ | .expired _ _ => []

/-- A program has come to its end and tells whether the files differ. -/
def Compared (p : ProgramOutcome) : Prop :=
  ∃ status output errors, p = .finished status output errors ∧ (status = 0 ∨ status = 1)

/-- A program took too long. -/
def Expired (p : ProgramOutcome) : Prop :=
  ∃ seconds output, p = .expired seconds output

/-- A program was stopped by a signal. -/
def Killed (p : ProgramOutcome) : Prop :=
  ∃ status output errors, p = .finished status output errors ∧ status < 0

theorem compared_or_killed_iff (p : ProgramOutcome) : p.Compared ∨ p.Killed ↔
    ∃ status output errors, p = .finished status output errors ∧ status ≤ 1 := by
  constructor
  · rintro (⟨status, output, errors, same, value⟩ | ⟨status, output, errors, same, negative⟩)
    · exact ⟨status, output, errors, same, by omega⟩
    · exact ⟨status, output, errors, same, by omega⟩
  · rintro ⟨status, output, errors, same, small⟩
    by_cases negative : status < 0
    · exact .inr ⟨status, output, errors, same, negative⟩
    · exact .inl ⟨status, output, errors, same, by omega⟩

/-- How a program ends without a given end. -/
def idle : ProgramOutcome := .finished 0 (.bytes []) (.bytes [])

end ProgramOutcome

/-- No program has been run. -/
structure World.Spared (w v : World) : Prop where
  programs : v.programs = w.programs
  calls : v.calls = w.calls

instance : Upkeep Spared where
  refl _ := ⟨rfl, rfl⟩
  trans first second := ⟨second.programs.trans first.programs, second.calls.trans first.calls⟩
  tick _ _ := ⟨rfl, rfl⟩
  note _ _ := ⟨rfl, rfl⟩

theorem Action.runProgram_ensures (w : World) (command : List Text) (timeout : Option Int) :
    (runProgram command timeout).Ensures w
      (fun p v => p = w.programs.headD .idle ∧ v.programs = w.programs.tail) (fun _ _ => False) :=
  ⟨rfl, rfl⟩

theorem Sink.forM_emit_spared (sink : Sink) (lines : List Text) (w : World) :
    (lines.forM sink.emit).Ensures w (fun _ v => w.Spared v) (fun _ _ => sink = .print) := by
  have one : ∀ line w, (sink.emit line).Ensures w (fun _ v => w.Spared v)
      (fun _ _ => sink = .print) := by
    intro line w
    cases sink with
    | discard | collect => exact ⟨rfl, rfl⟩
    | print =>
      unfold emit Console.print
      rw [ensures_bind]
      cases Encoding.checkScalars (Console.render line) with
      | error e => rfl
      | ok _ => exact ⟨rfl, rfl⟩
  induction lines generalizing w with
  | nil => exact ⟨rfl, rfl⟩
  | cons line rest ih =>
    rw [List.forM_eq_forM, List.forM_cons, ensures_bind]
    refine (one line w).mono ?_ fun _ _ raised => raised
    intro _ v spared
    exact (ih v).mono (fun _ _ later => Upkeep.trans spared later) fun _ _ raised => raised

namespace Differ

/-- What comes of a comparison by a program. -/
def answer (command : List Text) (old new : Path) (p : ProgramOutcome) : Except DiffError Text :=
  let command := command ++ [old.text, new.text]
  match p with
  | .failed errno => .error (.cannotRun command (.system (.system errno command.head? none)))
  | .expired seconds _ => .error (.cannotRun command (.expired command seconds))
  | .finished status output errors =>
    if 1 < status then
      .error (.exited command status (output.readReplacing ++ errors.readReplacing))
    else .ok output.readReplacing

/-- The end of the program decides a comparison. -/
theorem diffByProgram_ensures (w : World) (command : List Text) (timeout : Option Int)
    (old new : Path) :
    (diffByProgram command timeout old new).Ensures w
      (fun output v => v.programs = w.programs.tail ∧
        answer command old new (w.programs.headD .idle) = .ok output)
      (fun failure v => v.programs = w.programs.tail ∧ ∃ e, failure = .diff e ∧
        answer command old new (w.programs.headD .idle) = .error e) := by
  unfold diffByProgram
  rw [ensures_bind]
  refine (runProgram_ensures w _ timeout).mono ?_ fun _ _ => False.elim
  rintro p v ⟨ends, tail⟩
  rw [← ends]
  cases p with
  | failed errno => exact ⟨tail, _, rfl, rfl⟩
  | expired seconds printed => exact ⟨tail, _, rfl, rfl⟩
  | finished status output errors =>
    by_cases fails : 1 < status
    · simp only [answer, fails, ↓reduceIte]
      exact ⟨tail, _, rfl, rfl⟩
    · simp only [answer, fails, ↓reduceIte]
      exact ⟨tail, rfl⟩

end Differ

namespace Backup

variable {command : List Text} {timeout : Option Int} {sink : Sink} {start w : World}
  {lines : List Text}

/-- What is recorded for a pair, as its comparison has come out. -/
def DiffOutcome.ofAnswer (pair : Pair) : Except DiffError Text → DiffOutcome
  | .ok output => { pair, output }
  | .error e => { pair, output := e.output, error := some e.message }

/-- What is recorded for a pair, as the program has ended. -/
def told (command : List Text) (pair : Pair) (p : ProgramOutcome) : DiffOutcome :=
  .ofAnswer pair (Differ.answer command pair.backup pair.live p)

/-- A comparison by a program always returns. -/
theorem compare_program_ensures (w : World) (turn : Nat) (pair : Pair) :
    (compare (.program command timeout) turn pair).Ensures w
      (fun o v => v.programs = w.programs.tail ∧ o = told command pair (w.programs.headD .idle))
      (fun _ _ => False) := by
  unfold compare
  rw [ensures_tryCatch, ensures_bind]
  refine (Differ.diffByProgram_ensures w command timeout pair.backup pair.live).mono ?_ ?_
  · rintro output v ⟨tail, answered⟩
    rw [ensures_pure, told, answered]
    exact ⟨tail, rfl⟩
  · rintro failure v ⟨tail, e, rfl, answered⟩
    rw [told, answered]
    exact ⟨tail, rfl⟩

/-- Pairs that are compared by a program one after the other, each by the next run. -/
theorem comparePairs_program_ensures (shows : sink.Shows start w lines) (turn : Nat)
    (pairs : List Pair) :
    (comparePairs (.program command timeout) sink turn pairs).Ensures w
      (fun outcomes v =>
        outcomes = pairs.mapIdx (fun i pair => told command pair (w.programs.getD i .idle)) ∧
        sink.Shows start v (lines ++ outcomes.flatMap DiffOutcome.lines))
      (fun _ _ => sink = .print) := by
  induction pairs generalizing turn w lines with
  | nil => exact ⟨rfl, by simpa using shows⟩
  | cons pair rest ih =>
    rw [comparePairs, ensures_bind]
    refine ((compare_program_ensures w turn pair).and (within_compare Still _ turn pair w)).mono ?_
      fun _ _ raised => raised.1.elim
    rintro o u ⟨⟨tail, rfl⟩, still⟩
    rw [ensures_bind]
    have showsNow := shows.of_sameOutput still.sameOutput
    refine ((showsNow.forM_emit_ensures _).and (sink.forM_emit_spared _ u)).mono ?_
      fun _ _ raised => raised.2
    rintro _ v ⟨⟨-, showsThen⟩, spared⟩
    rw [ensures_bind]
    refine (ih showsThen (turn + 1)).mono ?_ fun _ _ raised => raised
    rintro outcomes x ⟨rfl, showsLast⟩
    rw [spared.programs, tail] at showsLast ⊢
    have all : (pair :: rest).mapIdx (fun i pair => told command pair (w.programs.getD i .idle)) =
        told command pair (w.programs.headD .idle) ::
          rest.mapIdx fun i pair => told command pair (w.programs.tail.getD i .idle) := by
      rw [List.mapIdx_cons]
      cases w.programs <;> rfl
    rw [ensures_pure, all, List.flatMap_cons, ← List.append_assoc]
    exact ⟨rfl, showsLast⟩

/-- What an outcome tells of the end of a program: there is no error if the files were compared or
the program was stopped by a signal, and then the output is what the program has printed; else the
errors it has printed follow. Only what a program has printed that took too long is not told. -/
structure Tells (p : ProgramOutcome) (o : DiffOutcome) : Prop where
  passes : o.error = none ↔ p.Compared ∨ p.Killed
  output : o.error = none → o.output = p.output
  failed : o.error ≠ none → ¬p.Expired → o.output = p.output ++ p.errors
  expired : p.Expired → o.output = []

theorem Tells.of_ok {p : ProgramOutcome} (passes : p.Compared ∨ p.Killed) (pair : Pair) :
    Tells p (.ofAnswer pair (.ok p.output)) := by
  refine ⟨iff_of_true rfl passes, fun _ => rfl, fun some => absurd rfl some, ?_⟩
  rintro ⟨seconds, output, rfl⟩
  simp [ProgramOutcome.compared_or_killed_iff] at passes

theorem Tells.of_error {p : ProgramOutcome} {e : DiffError} (fails : ¬(p.Compared ∨ p.Killed))
    (printed : ¬p.Expired → e.output = p.output ++ p.errors) (lost : p.Expired → e.output = [])
    (pair : Pair) : Tells p (.ofAnswer pair (.error e)) :=
  ⟨iff_of_false (Option.some_ne_none _) fails, fun none => absurd none (Option.some_ne_none _),
    fun _ => printed, lost⟩

theorem tells_told (command : List Text) (pair : Pair) (p : ProgramOutcome) :
    Tells p (told command pair p) := by
  have passes := p.compared_or_killed_iff
  cases p with
  | failed errno | expired seconds printed =>
    refine .of_error (by simp [passes]) ?_ (fun _ => rfl) pair
    simp [ProgramOutcome.Expired, DiffError.output, ProgramOutcome.output, ProgramOutcome.errors]
  | finished status output errors =>
    rw [told, Differ.answer]
    by_cases fails : 1 < status
    · rw [if_pos fails]
      exact .of_error (by simpa [passes] using fails) (fun _ => rfl)
        (by simp [ProgramOutcome.Expired]) pair
    · rw [if_neg fails]
      exact .of_ok (passes.mpr ⟨status, output, errors, rfl, Int.not_lt.mp fails⟩) pair

/-- A search that runs no program leaves all of them to the comparisons. -/
theorem findAll_native_spared (root : Path) (followLinks : Bool) (suffix : Text) :
    Within Spared (findAll root (.native followLinks) suffix) :=
  (Walker.within_walkNative Spared followLinks root _).bind fun _ => within_pairsOf Spared suffix _

/-- Whatever becomes of the programs that compare saved copies with their files, there is an outcome
for each pair in the order in which they are found, and it is told, as are the lines emitted for it,
by its own program alone. A program that was stopped by a signal passes for one that has compared
the files. Nothing is changed, and nothing but a line that cannot be printed stops the
comparisons. -/
theorem diff_outcomes_apart (command : List Text) (timeout : Option Int) :
    ∃ told : Pair → ProgramOutcome → DiffOutcome,
      (∀ pair p, (told pair p).pair = pair ∧ Tells p (told pair p)) ∧
      ∀ (w u : World) (root : Path) (walker : Walker) (suffix : Text) (sink : Sink)
        (pairs : List Pair), (findAll root walker suffix).run w = .ok pairs u →
        ((∃ followLinks, walker = .native followLinks) → u.programs = w.programs) ∧
        (diff root walker (.program command timeout) suffix sink).Ensures w
          (fun outcomes v =>
            outcomes = pairs.mapIdx (fun i pair => told pair (u.programs.getD i .idle)) ∧
            sink.Shows w v (outcomes.flatMap DiffOutcome.lines) ∧ v.tree = w.tree)
          (fun _ v => sink = .print ∧ v.tree = w.tree) := by
  refine ⟨told command, fun pair p => ⟨?_, tells_told command pair p⟩, ?_⟩
  · rw [told]
    cases Differ.answer command pair.backup pair.live p <;> rfl
  · intro w u root walker suffix sink pairs finds
    constructor
    · rintro ⟨followLinks, rfl⟩
      exact ((findAll_native_spared root followLinks suffix w).of_ok finds).programs
    · have still := (within_findAll Still root walker suffix w).of_ok finds
      have shows := (Sink.Shows.refl sink w).of_sameOutput still.sameOutput
      have compares : (diff root walker (.program command timeout) suffix sink).Ensures w
          (fun outcomes v =>
            outcomes = pairs.mapIdx (fun i pair => told command pair (u.programs.getD i .idle)) ∧
            sink.Shows w v (outcomes.flatMap DiffOutcome.lines)) (fun _ _ => sink = .print) := by
        rw [diff, ensures_bind, Ensures, finds]
        exact comparePairs_program_ensures shows 0 pairs
      exact (compares.and (quiet_diff root walker _ suffix sink w)).mono
        (fun _ _ returned => ⟨returned.1.1, returned.1.2, returned.2.tree⟩)
        fun _ _ raised => ⟨raised.1, raised.2.tree⟩

/-- Two programs of which the first takes too long. -/
def slowFirst : World where
  tree := ⟨[]⟩
  programs := [.expired "5" (.text "p"), .finished 1 (.text "d") (.text [])]

/-- The first comparison fails, and the second does not. -/
theorem diff_outcomes_apart_slow : ∃ first second v,
    (diff (.ofText ".") (.fixed [.ofText "a-original", .ofText "b-original"])
      (.program ["diff"] none) defaultSuffix .collect).run slowFirst = .ok [first, second] v ∧
    first.error ≠ none ∧ first.output = [] ∧ second.error = none ∧ second.output = "d" ∧
    v.emitted = first.lines ++ second.lines := by
  obtain ⟨told, tells, compares⟩ := diff_outcomes_apart ["diff"] none
  have finds : (findAll (.ofText ".") (.fixed [.ofText "a-original", .ofText "b-original"])
      defaultSuffix).run slowFirst = .ok [⟨.ofText "a-original", .ofText "a"⟩,
        ⟨.ofText "b-original", .ofText "b"⟩] slowFirst := rfl
  have ends := (compares _ _ _ _ _ .collect _ finds).2
  have slow := (tells ⟨.ofText "a-original", .ofText "a"⟩ (.expired "5" (.text "p"))).2
  have fine := (tells ⟨.ofText "b-original", .ofText "b"⟩ (.finished 1 (.text "d") (.text []))).2
  have fails : ¬(ProgramOutcome.Compared (.expired "5" (.text "p")) ∨
      ProgramOutcome.Killed (.expired "5" (.text "p"))) := by
    simp [ProgramOutcome.compared_or_killed_iff]
  have error := mt slow.passes.mp fails
  have none := fine.passes.mpr (.inl ⟨1, .text "d", .text [], rfl, .inr rfl⟩)
  cases run : (diff (.ofText ".") (.fixed [.ofText "a-original", .ofText "b-original"])
      (.program ["diff"] Option.none) defaultSuffix .collect).run slowFirst with
  | error failure v => exact absurd (ends.of_error run).1 (by decide)
  | ok outcomes v =>
    obtain ⟨rfl, shows, -⟩ := ends.of_ok run
    exact ⟨_, _, v, rfl, error, slow.expired ⟨"5", .text "p", rfl⟩, none, fine.output none,
      by simpa [slowFirst] using shows.emitted⟩

/-- A file and its saved copy, and a program that is stopped by a signal. -/
def killed : World where
  tree := ⟨[([[97, 46, 116, 99, 108]], .file [120] 0o644),
    ([[97, 46, 116, 99, 108] ++ suffixBytes], .file [121] 0o644)]⟩
  programs := [.finished (-9) (.text "partial") (.text [])]

/-- A program that was stopped by a signal has not compared the files, and still there is no
error. -/
theorem killed_program_passes :
    ¬ProgramOutcome.Compared (.finished (-9) (.text "partial") (.text [])) ∧ ∃ v,
      (diff (.ofText ".") (.fixed [.ofText "a.tcl-original"]) (.program ["diff", "-wu"] none)
        defaultSuffix .collect).run killed =
      .ok [⟨⟨.ofText "a.tcl-original", .ofText "a.tcl"⟩, "partial", none⟩] v := by
  refine ⟨?_, _, rfl⟩
  rintro ⟨_, _, _, same, value⟩
  cases same
  omega

end Backup

end Renewal
