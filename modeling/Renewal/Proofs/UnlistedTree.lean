import Renewal.Proofs.AccessPath
import Renewal.Proofs.Tour
import Renewal.Proofs.TwinRuns
import Renewal.Rule.Server

/-! # Runs that cannot list their tree

A run enumerates files before it does anything else, whichever of its three walks comes first. If
its root is no directory, or one of the directories on the way cannot be listed, it ends there: it
raises a failure, no file has been changed and nothing has been told (`run_unlisted`). The failure
says that the files cannot be enumerated, unless a path is asked for before that is too long or
leads to a name that is.
-/

namespace Renewal

open Renewal.Tree World FileSystem Relation

namespace Walker

open Tour

variable {w : World} {followLinks : Bool} {root : Path} {pattern directory : Text}
  {failure : Failure}

/-- A turn of a tour that passes by what cannot be listed. -/
inductive Turn (w : World) (followLinks : Bool) : Tour → Tour → Prop
  | step {s s' : Tour} (step : Tour.Step w followLinks s s') : Turn w followLinks s s'
  | pass {entered : List (Text × Location)} {directory : Text} {ahead : List Text}
      (cannot : ∀ place, ¬Lists w directory place) :
      Turn w followLinks ⟨entered, directory :: ahead⟩ ⟨entered, ahead⟩

/-- A directory lies on the tour from a root, by some path. -/
def Meets (w : World) (followLinks : Bool) (root : Path) (directory : Text) : Prop :=
  ∃ entered ahead,
    ReflTransGen (Turn w followLinks) ⟨[], [root.text]⟩ ⟨entered, directory :: ahead⟩

/-- On a tour that comes to its end there is nothing to pass by. -/
theorem steps_of_turns {s s' : Tour} {entered : List (Text × Location)}
    (ends : Steps w followLinks s ⟨entered, []⟩) (turns : ReflTransGen (Turn w followLinks) s s') :
    Steps w followLinks s s' := by
  induction turns with
  | refl => exact .refl
  | tail _ turn ih =>
    cases turn with
    | step step => exact ih.tail step
    | pass cannot =>
      obtain ⟨place, lists⟩ := ends.lists ih
      exact absurd lists (cannot place)

/-- Files cannot be enumerated by listing. -/
def Unlisted (w : World) (followLinks : Bool) (root : Path) : Prop :=
  ¬IsDirectory w root.text ∨
    ∃ directory, Meets w followLinks root directory ∧ ∀ place, ¬Lists w directory place

/-- A walk asks what stands at a path: at its root, or at an entry of a directory on its tour whose
name matches. -/
def Questions (w : World) (followLinks : Bool) (root : Path) (pattern path : Text) : Prop :=
  path = root.text ∨ ∃ directory place, Meets w followLinks root directory ∧
    Lists w directory place ∧ Asks w pattern (directory, place) path

theorem Meets.of_steps {entered : List (Text × Location)} {ahead : List Text}
    (comes : Steps w followLinks ⟨[], [root.text]⟩ ⟨entered, directory :: ahead⟩) :
    Meets w followLinks root directory :=
  ⟨entered, ahead, comes.lift id fun _ _ => .step⟩

/-- A walk that cannot list what it should raises a failure; it tells that, or that a path it has
asked for is too long. -/
theorem walkNative_unlisted (steady : Steady w) (unlisted : Unlisted w followLinks root)
    (pattern : Text) :
    ∃ failure v, (walkNative followLinks root pattern).run w = .error failure v ∧ w.Unmoved v ∧
      w.SameOutput v ∧ ((∃ e, failure = .enumeration e) ∨
        ∃ path, Questions w followLinks root pattern path ∧ w.find path = .error .nameTooLong ∧
          failure = failed path .nameTooLong) := by
  have ensures := ((walkNative_tours steady followLinks root pattern).and
    (within_walk SameOutput (.native followLinks) root pattern w)).with_run
  cases ends : (walkNative followLinks root pattern).run w with
  | ok files v =>
    obtain ⟨-, ⟨-, isDirectory, entered, steps, -⟩, -⟩ := ensures.of_ok ends
    obtain notDirectory | ⟨directory, ⟨met, ahead, turns⟩, cannot⟩ := unlisted
    · exact absurd isDirectory notDirectory
    · obtain ⟨place, lists⟩ := steps.lists (steps_of_turns steps turns)
      exact absurd lists (cannot place)
  | error failure v =>
    obtain ⟨-, ⟨unmoved, stopped⟩, quiet⟩ := ensures.of_error ends
    refine ⟨failure, v, rfl, unmoved, quiet, ?_⟩
    obtain refuses | ⟨-, rfl⟩ | ⟨-, stops⟩ := stopped
    · exact .inr ⟨_, .inl rfl, refuses.tooLong⟩
    · exact .inl ⟨_, rfl⟩
    · cases stops with
      | unlisted errno _ _ => exact .inl ⟨_, rfl⟩
      | refused comes lists _ asks refuses =>
        exact .inr ⟨_, .inr ⟨_, _, .of_steps comes, lists, asks⟩, refuses.tooLong⟩

end Walker

namespace Run

variable {w v : World} {tools : Tools} {options : RunOptions} {failure : Failure}

/-- The pattern of the first walk of a run: for saved copies or for files. -/
def firstPattern (options : RunOptions) : Text :=
  if options.reset ∨ options.diff then ('*' : CodePoint) :: options.suffix else options.name

/-- Without its first walk a run does nothing. -/
theorem run_error_of_walk
    (raises : (tools.walker.walk (.ofText options.path) (firstPattern options)).run w =
      .error failure v) : (run tools options).run w = .error failure v := by
  unfold firstPattern at raises
  unfold run restoreFirst
  cases reset : options.reset with
  | true =>
    rw [if_pos (.inl reset)] at raises
    simp only [↓reduceIte]
    have finds := Action.run_bind_error raises (Backup.pairsOf options.suffix)
    have resets := Action.run_bind_error finds fun pairs => pairs.mapM Backup.restore
    exact Action.run_bind_error (Action.run_bind_error resets _) _
  | false =>
    rw [reset] at raises
    simp only [Bool.false_eq_true, ↓reduceIte, pure_bind]
    cases diff : options.diff with
    | true =>
      rw [if_pos (.inr diff)] at raises
      simp only [↓reduceIte]
      have finds := Action.run_bind_error raises (Backup.pairsOf options.suffix)
      exact Action.run_bind_error (Action.run_bind_error finds _) _
    | false =>
      rw [if_neg (by simp [diff])] at raises
      simp only [Bool.false_eq_true, ↓reduceIte]
      exact Action.run_bind_error raises _

end Run

open Walker Run

variable {w : World} {tools : Tools} {followLinks : Bool}

/-- A run that cannot list its tree raises a failure and leaves everything as it was. -/
theorem run_unlisted (native : tools.walker = .native followLinks) (steady : Steady w)
    (options : RunOptions) (unlisted : Unlisted w followLinks (.ofText options.path)) :
    ∃ failure v, (run tools options).run w = .error failure v ∧
      v.tree = w.tree ∧ v.past = w.past ∧ v.emitted = w.emitted ∧ v.printed = w.printed ∧
      ((∃ e, failure = .enumeration e) ∨
        ∃ path, Questions w followLinks (.ofText options.path) (firstPattern options) path ∧
          w.find path = .error .nameTooLong ∧ failure = failed path .nameTooLong) := by
  obtain ⟨failure, v, raises, unmoved, quiet, tells⟩ :=
    walkNative_unlisted steady unlisted (firstPattern options)
  refine ⟨failure, v, run_error_of_walk ?_, unmoved.tree, unmoved.past, quiet.emitted,
    quiet.printed, tells⟩
  rw [native]
  exact raises

/-- A directory with another one in it that cannot be listed. -/
def barred : World where
  tree := ⟨[([[115]], .directory)]⟩
  faults _ call := if call = .list "./s" then some ⟨13⟩ else none

/-- Tools that keep what is emitted. -/
def keeping : Tools where
  rules := .server
  walker := .native true
  differ := .prepared []
  sink := .collect

theorem unlisted_barred : Steady barred ∧ Unlisted barred true (.ofText ".") := by
  have lists : Lists barred "." [] := ⟨fun _ => rfl, by decide +kernel⟩
  have below : onward barred true "." [] = [("./s" : Text)] := by decide +kernel
  have new : [] ∉ ([] : List (Text × Location)).map Prod.snd := by simp
  have step : Tour.Step barred true ⟨[], [("." : Text)]⟩
      ⟨[] ++ [(("." : Text), [])], onward barred true "." [] ++ []⟩ := .enter lists new
  rw [below] at step
  refine ⟨fun _ _ _ => rfl, .inr ⟨"./s", ⟨_, _, .single (.step step)⟩, fun place cannot => ?_⟩⟩
  exact absurd (cannot.unhindered 0) (by decide +kernel)

/-- A run that should put copies back and update files ends at the directory that cannot be listed.
-/
theorem run_unlisted_barred : ∃ v,
    (run keeping { reset := true, change := true }).run barred =
      .error (.enumeration (.cannotList "./s" ⟨13⟩)) v ∧
      v.tree = barred.tree ∧ v.past = [] ∧ v.emitted = [] ∧ v.printed = [] := by
  obtain ⟨steady, unlisted⟩ := unlisted_barred
  have told : (run keeping { reset := true, change := true }).failure? barred =
      some (.enumeration (.cannotList "./s" ⟨13⟩)) := by
    decide +kernel
  have before : barred.past = [] ∧ barred.emitted = [] ∧ barred.printed = [] := ⟨rfl, rfl, rfl⟩
  generalize barred = w at steady unlisted told before ⊢
  have native : keeping.walker = .native true := rfl
  obtain ⟨failure, v, raises, tree, past, emitted, printed, -⟩ :=
    run_unlisted native steady { reset := true, change := true } unlisted
  obtain ⟨v', raises'⟩ := Action.run_of_failure? told
  cases raises.symm.trans raises'
  exact ⟨v, raises, tree, past.trans before.1, emitted.trans before.2.1, printed.trans before.2.2⟩

/-- A name that is longer than names can be. -/
def longName : Text :=
  List.replicate 256 'a'

/-- A root with such a name is no directory, but it is not said that files cannot be enumerated. -/
theorem long_root_unlisted : ¬IsDirectory barred longName ∧ ∃ v,
    (run keeping { path := longName }).run barred = .error (failed longName .nameTooLong) v := by
  have stuck : barred.find longName = .error .nameTooLong := by decide +kernel
  have told : (run keeping { path := longName }).failure? barred =
      some (failed longName .nameTooLong) := by
    decide +kernel
  generalize barred = w at stuck told ⊢
  refine ⟨fun isDirectory => ?_, Action.run_of_failure? told⟩
  obtain ⟨-, place, finds⟩ := isDirectory
  rw [stuck] at finds
  cases finds

end Renewal
