import Renewal.Proofs.PrintedLines
import Renewal.Proofs.UndoHistory
import Renewal.Proofs.VisibleUpdates

/-! # Changes of white space in a diff

Two files differ in white space only if their lines are equal in pairs once white space is removed,
where a line ends at a newline and nowhere else (`Text.rows`). The native differ ends lines at other
white space as well. So it sees no change just if the finer lines are equal in pairs
(`Differ.blank_changes`), and where one of the files ends its lines at newlines alone, just if the
other does so too (`Text.Unbroken`).
-/

namespace Renewal

namespace Text

variable {t old new : Text} {c : CodePoint}

/-- The lines of a text if only newlines end them, each with the newline that closes it. -/
def rows : Text → List Text
  | [] => []
  | c :: rest =>
    if c = newline then [c] :: rows rest
    else
      match rows rest with
      | [] => [[c]]
      | first :: others => (c :: first) :: others

/-- Two texts have the same lines but for white space, if only newlines end lines. -/
def SameButBlanks (old new : Text) : Prop :=
  old.rows.map squeeze = new.rows.map squeeze

instance (old new : Text) : Decidable (SameButBlanks old new) :=
  inferInstanceAs (Decidable (_ = _))

/-- A line ends at a code point, although more of the same row follows. -/
structure Breaks (c : CodePoint) (rest : Text) : Prop where
  ends : c.endsLine = true
  inside : c ≠ newline
  followed : rest ≠ []
  apart : ¬(c = ('\r' : CodePoint) ∧ rest.head? = some newline)

/-- No row of a text has the end of a line inside; a carriage return may stand before a newline. -/
def Unbroken (t : Text) : Prop :=
  ∀ front c rest, t = front ++ c :: rest → ¬Breaks c rest

theorem unbroken_cons {rest : Text} :
    Unbroken (c :: rest) ↔ ¬Breaks c rest ∧ Unbroken rest := by
  constructor
  · intro unbroken
    refine ⟨unbroken [] c rest rfl, fun front d last cut => ?_⟩
    exact unbroken (c :: front) d last (congrArg (c :: ·) cut)
  · intro ⟨here, later⟩ front d last cut
    cases front with
    | nil =>
      obtain ⟨rfl, rfl⟩ := List.cons.inj cut
      exact here
    | cons e front => exact later front d last (List.cons.inj cut).2

theorem rows_cons {rest first : Text} {others : List Text} (inside : c ≠ newline)
    (cut : rows rest = first :: others) : rows (c :: rest) = (c :: first) :: others := by
  rw [rows, if_neg inside, cut]

theorem lines_cons_of_breaks {rest : Text} (breaks : Breaks c rest) :
    lines (c :: rest) = [c] :: lines rest := by
  rw [lines, if_pos ⟨breaks.ends, breaks.apart⟩]

theorem lines_cons {rest first : Text} {others : List Text} (inside : c ≠ newline)
    (whole : ¬Breaks c rest) (cut : lines rest = first :: others) :
    lines (c :: rest) = (c :: first) :: others := by
  have followed : rest ≠ [] := by
    rintro rfl
    cases cut
  rw [lines, if_neg fun ends => whole ⟨ends.1, inside, followed, ends.2⟩, cut]

theorem exists_rows {rest : Text} (followed : rest ≠ []) :
    ∃ first others, rows rest = first :: others := by
  obtain ⟨c, rest, rfl⟩ := List.exists_cons_of_ne_nil followed
  rw [rows]
  split
  · exact ⟨_, _, rfl⟩
  · split <;> exact ⟨_, _, rfl⟩

theorem exists_lines {rest : Text} (followed : rest ≠ []) :
    ∃ first others, lines rest = first :: others := by
  obtain ⟨c, rest, rfl⟩ := List.exists_cons_of_ne_nil followed
  rw [lines]
  split
  · exact ⟨_, _, rfl⟩
  · split <;> exact ⟨_, _, rfl⟩

/-- There are no fewer lines than rows, and as many just if no row is broken; then the lines are the
rows. -/
theorem lines_rows (t : Text) : t.rows.length ≤ t.lines.length ∧
    (t.lines.length = t.rows.length ↔ t.Unbroken) ∧ (t.Unbroken → t.lines = t.rows) := by
  induction t with
  | nil =>
    have unbroken : Unbroken [] := fun front c rest cut => by simp at cut
    exact ⟨le_rfl, iff_of_true rfl unbroken, fun _ => rfl⟩
  | cons c rest ih =>
    obtain ⟨least, count, same⟩ := ih
    rw [unbroken_cons]
    by_cases isNewline : c = newline
    · subst isNewline
      have cut : lines (newline :: rest) = [newline] :: lines rest := rfl
      rw [cut, rows, if_pos rfl, List.length_cons, List.length_cons]
      refine ⟨Nat.succ_le_succ least, ?_, fun unbroken => by rw [same unbroken.2]⟩
      rw [Nat.succ_inj, count]
      exact (and_iff_right fun breaks => breaks.inside rfl).symm
    by_cases last : rest = []
    · subst last
      have one : lines [c] = rows [c] := by
        rw [lines, rows, if_neg isNewline]
        split <;> rfl
      rw [one]
      exact ⟨le_rfl, iff_of_true rfl ⟨fun breaks => breaks.followed rfl, count.mp rfl⟩,
        fun _ => rfl⟩
    obtain ⟨row, rows', cutRows⟩ := exists_rows last
    have rowCount : (rows (c :: rest)).length = (rows rest).length := by
      rw [rows_cons isNewline cutRows, cutRows, List.length_cons, List.length_cons]
    rw [rowCount]
    by_cases breaks : Breaks c rest
    · rw [lines_cons_of_breaks breaks, List.length_cons]
      refine ⟨by omega, iff_of_false (by omega) fun both => both.1 breaks, ?_⟩
      exact fun both => absurd breaks both.1
    · obtain ⟨line, lines', cutLines⟩ := exists_lines last
      have lineCount : (lines (c :: rest)).length = (lines rest).length := by
        rw [lines_cons isNewline breaks cutLines, cutLines, List.length_cons, List.length_cons]
      rw [lineCount]
      refine ⟨least, count.trans (and_iff_right breaks).symm, fun both => ?_⟩
      have equal := same both.2
      rw [cutLines, cutRows] at equal
      obtain ⟨rfl, rfl⟩ := List.cons.inj equal
      rw [lines_cons isNewline breaks cutLines, rows_cons isNewline cutRows]

/-- Where one of two texts that are the same but for white space ends its lines at newlines alone,
the lines are the same but for white space just if the other does so too. -/
theorem SameButBlanks.squeeze_lines_iff (same : SameButBlanks old new)
    (either : old.Unbroken ∨ new.Unbroken) :
    old.lines.map squeeze = new.lines.map squeeze ↔ old.Unbroken ∧ new.Unbroken := by
  obtain ⟨-, countOld, linesOld⟩ := lines_rows old
  obtain ⟨-, countNew, linesNew⟩ := lines_rows new
  have rowCount : old.rows.length = new.rows.length := by
    simpa using congrArg List.length same
  constructor
  · intro equal
    have lineCount : old.lines.length = new.lines.length := by
      simpa using congrArg List.length equal
    rcases either with unbroken | unbroken
    · have count := countOld.mpr unbroken
      exact ⟨unbroken, countNew.mp (by omega)⟩
    · have count := countNew.mpr unbroken
      exact ⟨countOld.mp (by omega), unbroken⟩
  · intro both
    rw [linesOld both.1, linesNew both.2]
    exact same

end Text

namespace Differ

open FileSystem World

variable {w : World} {old new : Path} {oldPlace newPlace : Location} {oldBytes newBytes : Bytes}
  {oldMode newMode : Nat}

/-- The native differ reads a file as it is. -/
theorem readLines_ensures {path : Path} {place : Location} {bytes : Bytes} {mode : Nat}
    (faultless : w.faults = Faults.none) (leads : Leads w path.text place (.file bytes mode)) :
    (readLines "utf-8" path).Ensures w
      (fun lines v => w.Unmoved v ∧ lines = (Utf8.decode bytes).lines) (fun _ _ => False) := by
  have known : Encoding.ofName? "utf-8" = some .utf8 := by decide +kernel
  have canRead : CanRead w path.text "utf-8" :=
    ⟨faultless, ⟨rfl, rfl⟩, _, place, bytes, mode, _, codec?_of_known known, leads, rfl⟩
  unfold readLines
  rw [Action.ensures_bind, Action.ensures_tryCatch]
  refine (readText_ensures w path.text "utf-8").mono ?_ fun _ _ raised => absurd canRead raised.2
  intro t v ⟨unmoved, codec, found, e, listed, finds, reads⟩
  cases (codec?_of_known known).symm.trans listed
  cases leads.finds.symm.trans finds
  cases reads bytes mode rfl
  exact ⟨unmoved, rfl⟩

/-- The diff of two files that can be read. -/
theorem diff_native_ensures (faultless : w.faults = Faults.none)
    (leadsOld : Leads w old.text oldPlace (.file oldBytes oldMode))
    (leadsNew : Leads w new.text newPlace (.file newBytes newMode)) (turn : Nat) :
    (diff (.native "utf-8" defaultContext) turn old new).Ensures w
      (fun output _ => output = Diff.unifiedIgnoringBlanks (Utf8.decode oldBytes).lines
        (Utf8.decode newBytes).lines old.text new.text defaultContext) (fun _ _ => False) := by
  unfold diff diffNative
  rw [Action.ensures_bind]
  refine (readLines_ensures faultless leadsOld).mono ?_ fun _ _ never => never
  rintro _ v ⟨unmoved, rfl⟩
  rw [Action.ensures_bind]
  have leads : Leads v new.text newPlace (.file newBytes newMode) :=
    ⟨leadsNew.written, by rw [find_of_unmoved unmoved, leadsNew.finds]⟩
  have faultlessNow : v.faults = Faults.none := by
    rw [faults_of_setting unmoved.setting, faultless]
  refine (readLines_ensures faultlessNow leads).mono ?_ fun _ _ never => never
  rintro _ u ⟨-, rfl⟩
  rfl

/-- The native differ compares any two files. It shows nothing just if the lines of the files, ended
at every line end, are equal in pairs but for white space. So where the files are the same but for
white space and one of them ends lines at newlines alone, it shows nothing just if the other does so
too. -/
theorem blank_changes (faultless : w.faults = Faults.none)
    (leadsOld : Leads w old.text oldPlace (.file oldBytes oldMode))
    (leadsNew : Leads w new.text newPlace (.file newBytes newMode)) (turn : Nat) :
    ∃ output v, (diff (.native "utf-8" defaultContext) turn old new).run w = .ok output v ∧
      (output = [] ↔ (Utf8.decode oldBytes).lines.map Text.squeeze =
        (Utf8.decode newBytes).lines.map Text.squeeze) ∧
      (Text.SameButBlanks (Utf8.decode oldBytes) (Utf8.decode newBytes) →
        (Utf8.decode oldBytes).Unbroken ∨ (Utf8.decode newBytes).Unbroken →
        (output = [] ↔ (Utf8.decode oldBytes).Unbroken ∧ (Utf8.decode newBytes).Unbroken)) := by
  have ends := diff_native_ensures faultless leadsOld leadsNew turn
  cases run : (diff (.native "utf-8" defaultContext) turn old new).run w with
  | error failure v => exact (ends.of_error run).elim
  | ok output v =>
    have empty := Diff.unifiedIgnoringBlanks_eq_nil_iff (Utf8.decode oldBytes).lines
      (Utf8.decode newBytes).lines old.text new.text (show 0 ≤ defaultContext by decide)
    rw [← ends.of_ok run] at empty
    exact ⟨output, v, rfl, empty, fun same either => empty.trans (same.squeeze_lines_iff either)⟩

/-- A file `a` with spaces and a carriage return more than the file `b`. -/
def spaced : World where
  tree := ⟨[([[97]], .file [120, 32, 121, 13, 10, 122] 0o644),
    ([[98]], .file [120, 121, 10, 32, 122] 0o644)]⟩

/-- Spaces, and a carriage return before a newline, make no difference. -/
theorem blank_changes_spaced :
    Leads spaced (Path.ofText "/a").text [[97]] (.file [120, 32, 121, 13, 10, 122] 0o644) ∧
    Leads spaced (Path.ofText "/b").text [[98]] (.file [120, 121, 10, 32, 122] 0o644) ∧
    ∃ v, (diff (.native "utf-8" defaultContext) 0 (.ofText "/a") (.ofText "/b")).run spaced =
      .ok [] v := by
  have leadsOld : Leads spaced (Path.ofText "/a").text [[97]]
      (.file [120, 32, 121, 13, 10, 122] 0o644) := ⟨by decide, by decide +kernel⟩
  have leadsNew : Leads spaced (Path.ofText "/b").text [[98]]
      (.file [120, 121, 10, 32, 122] 0o644) := ⟨by decide, by decide +kernel⟩
  obtain ⟨output, v, run, -, empty⟩ := blank_changes rfl leadsOld leadsNew 0
  have newEnds : (Utf8.decode [120, 121, 10, 32, 122]).Unbroken :=
    (Text.lines_rows _).2.1.mp (by decide)
  have oldEnds : (Utf8.decode [120, 32, 121, 13, 10, 122]).Unbroken :=
    (Text.lines_rows _).2.1.mp (by decide)
  obtain rfl := (empty (by decide) (.inr newEnds)).mpr ⟨oldEnds, newEnds⟩
  exact ⟨leadsOld, leadsNew, v, run⟩

/-- A file `a` with a form feed more than the file `b`. -/
def fed : World where
  tree := ⟨[([[97]], .file [120, 12, 121, 10] 0o644), ([[98]], .file [120, 121, 10] 0o644)]⟩

/-- A form feed is white space, and still it is shown as a change. -/
theorem form_feed_shown :
    Text.SameButBlanks (Utf8.decode [120, 12, 121, 10]) (Utf8.decode [120, 121, 10]) ∧
    ∃ output v, (diff (.native "utf-8" defaultContext) 0 (.ofText "/a") (.ofText "/b")).run fed =
      .ok output v ∧ output ≠ [] := by
  have leadsOld : Leads fed (Path.ofText "/a").text [[97]] (.file [120, 12, 121, 10] 0o644) :=
    ⟨by decide, by decide +kernel⟩
  have leadsNew : Leads fed (Path.ofText "/b").text [[98]] (.file [120, 121, 10] 0o644) :=
    ⟨by decide, by decide +kernel⟩
  refine ⟨by decide, ?_⟩
  have ends := diff_native_ensures rfl leadsOld leadsNew 0
  cases run : (diff (.native "utf-8" defaultContext) 0 (.ofText "/a") (.ofText "/b")).run fed with
  | error failure v => exact (ends.of_error run).elim
  | ok output v =>
    refine ⟨output, v, rfl, ?_⟩
    rw [ends.of_ok run, Ne, Diff.unifiedIgnoringBlanks_eq_nil_iff _ _ _ _ (by decide)]
    decide

end Differ

end Renewal
