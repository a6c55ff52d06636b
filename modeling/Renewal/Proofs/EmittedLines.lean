import Renewal.Proofs.PrintedLines
import Renewal.Proofs.TwinRuns

/-! # The lines that a run emits

A run emits reports, an announcement before each update of a file, and in the end one line that sums
it up. The number of changes can be read from an announcement (`Run.announced?_announcement`), and
no other line is taken for one.
-/

namespace Renewal

open World

/-- Nothing has been changed and nothing been told in between. -/
structure World.Still (w v : World) : Prop where
  unmoved : w.Unmoved v
  sameOutput : w.SameOutput v

instance : Action.Housekeeping Still where
  refl w := ⟨.refl w, ⟨rfl, rfl⟩⟩
  trans first second := ⟨first.unmoved.trans second.unmoved,
    Action.Upkeep.trans first.sameOutput second.sameOutput⟩
  tick _ _ := ⟨⟨rfl, rfl, rfl⟩, ⟨rfl, rfl⟩⟩
  note _ _ := ⟨⟨rfl, rfl, rfl⟩, ⟨rfl, rfl⟩⟩
  call _ _ _ := ⟨⟨rfl, rfl, rfl⟩, ⟨rfl, rfl⟩⟩

/-- What a world has to show if lines have been emitted since another. -/
def Sink.Shows : Sink → (start w : World) → (lines : List Text) → Prop
  | .discard, start, w, _ => HasTold start w [] []
  | .collect, start, w, lines => HasTold start w lines []
  | .print, start, w, lines => HasTold start w [] (.concat (lines.map Console.render))

namespace Sink

variable {sink : Sink} {start w v : World} {lines : List Text}

theorem Shows.refl (sink : Sink) (w : World) : sink.Shows w w [] := by
  cases sink <;> exact ⟨(List.append_nil _).symm, (List.append_nil _).symm⟩

theorem Shows.of_sameOutput (shows : sink.Shows start w lines) (quiet : w.SameOutput v) :
    sink.Shows start v lines := by
  cases sink <;> exact HasTold.of_sameOutput shows quiet

/-- One more line is shown. -/
theorem Shows.emit_ensures (shows : sink.Shows start w lines) (line : Text) :
    (sink.emit line).Ensures w (fun _ v => w.Unmoved v ∧ sink.Shows start v (lines ++ [line]))
      (fun _ _ => True) := by
  cases sink with
  | discard => exact ⟨.refl w, shows⟩
  | collect =>
    refine ⟨⟨rfl, rfl, rfl⟩, ?_, shows.printed⟩
    dsimp only
    rw [shows.emitted, List.append_assoc]
  | print =>
    have prints : (Sink.print.emit line).Ensures w
        (fun _ v => v = { w with printed := w.printed ++ Console.render line })
        (fun _ _ => True) := by
      unfold emit Console.print
      rw [Action.ensures_bind]
      cases Encoding.checkScalars (Console.render line) with
      | error e => trivial
      | ok _ => rfl
    refine prints.mono ?_ fun _ _ _ => trivial
    rintro _ v rfl
    refine ⟨⟨rfl, rfl, rfl⟩, shows.emitted, ?_⟩
    dsimp only
    rw [shows.printed, List.append_assoc]
    simp [Text.concat]

theorem Shows.forM_emit_ensures (shows : sink.Shows start w lines) (more : List Text) :
    (more.forM sink.emit).Ensures w (fun _ v => w.Unmoved v ∧ sink.Shows start v (lines ++ more))
      (fun _ _ => True) := by
  induction more generalizing w lines with
  | nil => exact ⟨.refl w, by rwa [List.append_nil]⟩
  | cons line rest ih =>
    rw [List.forM_eq_forM, List.forM_cons, Action.ensures_bind]
    refine (shows.emit_ensures line).mono ?_ fun _ _ _ => trivial
    intro _ v outcome
    refine (ih outcome.2).mono ?_ fun _ _ _ => trivial
    intro _ u later
    exact ⟨outcome.1.trans later.1, by simpa using later.2⟩

end Sink

namespace Run

/-- The line that is emitted before a file is updated. -/
def announcement (path : Path) (changes : Nat) : Text :=
  .concat ["... updating ", path.text, " (", .ofNat changes, " changes)"]

/-- The number after the last opening bracket of a line, if the line announces an update. -/
def announced? (line : Text) : Option Nat :=
  if ("... updating " : Text).isPrefixOf line then
    let detail := (line.reverse.takeWhile (· ≠ ('(' : CodePoint))).reverse
    some (Integer.ofDigits ((detail.takeWhile CodePoint.isAsciiDigit).map fun c => c.code - 48))
  else none

/-- An announcement tells its number of changes, whatever the path is. -/
theorem announced?_announcement (path : Path) (changes : Nat) :
    announced? (announcement path changes) = some changes := by
  have cut : announcement path changes = ("... updating " ++ (path.text ++ [(' ' : CodePoint)])) ++
      ('(' : CodePoint) :: (Text.ofNat changes ++ " changes)") := by
    simp only [announcement, Text.concat, List.flatten_cons, List.flatten_nil, List.append_assoc]
    rfl
  have detail : ∀ c ∈ (Text.ofNat changes ++ (" changes)" : Text)).reverse,
      decide (c ≠ ('(' : CodePoint)) = true := by
    intro c member
    rw [decide_eq_true_eq]
    rintro rfl
    rcases List.mem_append.mp (List.mem_reverse.mp member) with digit | word
    · exact Text.not_mem_ofNat (by decide) changes digit
    · exact absurd word (by decide)
  have digits : (Text.ofNat changes ++ (" changes)" : Text)).takeWhile CodePoint.isAsciiDigit =
      Text.ofNat changes := by
    rw [List.takeWhile_append_of_pos fun c => Text.isAsciiDigit_of_mem_ofNat]
    exact List.append_nil _
  have starts : ("... updating " : Text).isPrefixOf (announcement path changes) = true := by
    rw [List.isPrefixOf_iff_prefix, cut, List.append_assoc]
    exact List.prefix_append _ _
  rw [announced?, if_pos starts, cut, List.reverse_append, List.reverse_cons, List.append_assoc,
    List.takeWhile_append_of_pos detail]
  dsimp only
  rw [List.singleton_append, List.takeWhile_cons_of_neg (by decide), List.append_nil,
    List.reverse_reverse, digits, Text.ofDigits_ofNat]

/-- A line that begins with anything but a dot is no announcement. -/
theorem announced?_concat {first : Text} {c : CodePoint} (start : first.head? = some c)
    (other : c ≠ ('.' : CodePoint)) (rest : List Text) :
    announced? (.concat (first :: rest)) = none := by
  refine if_neg fun starts => other ?_
  obtain ⟨more, same⟩ := List.isPrefixOf_iff_prefix.mp starts
  obtain ⟨later, rfl⟩ := List.head?_eq_some_iff.mp start
  exact (List.cons.inj same).1.symm

theorem announced?_report {report : Report} {line : Text} (member : line ∈ report.lines) :
    announced? line = none := by
  unfold Report.lines at member
  split at member
  · simp only [List.mem_cons, List.mem_append, List.mem_map] at member
    rcases member with rfl | (⟨name, -, rfl⟩ | ⟨name, -, rfl⟩) | ⟨name, -, rfl⟩
    all_goals exact announced?_concat rfl (by decide) _
  · cases member

theorem announced?_line (summary : RunSummary) : announced? summary.line = none := by
  cases digits : Text.ofNat summary.totalChanges with
  | nil => simp [Text.ofNat] at digits
  | cons c rest =>
    have first : (Text.ofNat summary.totalChanges).head? = some c := by rw [digits]; rfl
    refine announced?_concat first ?_ _
    rintro rfl
    exact Text.not_mem_ofNat (by decide) _ (List.mem_of_mem_head? first)

end Run

end Renewal
