import Mathlib.Data.List.Forall2
import Mathlib.Data.List.TakeWhile
import Renewal.Console
import Renewal.Proofs.Outcome
import Renewal.Proofs.PrintedLines

/-! # Printed texts

`Console.Prints` says how a text is shown: without some control characters, and in each line with
spaces up to a tab stop in place of each tab. That is what is printed, and the text itself is
printed just if it has no tab and none of these control characters (`Console.print_verbatim`).
-/

namespace Renewal

namespace Text

/-- The space that tabs are replaced by. -/
def space : CodePoint := ' '

/-- A number of spaces. -/
def spaces (count : Nat) : Text :=
  List.replicate count space

theorem cellsFrom_spaces (last : Option CodePoint) (count : Nat) :
    cellsFrom false last (spaces count) = count := by
  induction count generalizing last with
  | zero => rfl
  | succ count ih =>
    change 1 + cellsFrom false (some space) (spaces count) = count + 1
    rw [ih, Nat.add_comm]

/-- Each space after the first takes a cell; the first one takes none if it is joined to what comes
before it. -/
theorem cellsFrom_append_spaces (hidden : Bool) (last : Option CodePoint) (t : Text) (count : Nat) :
    cellsFrom hidden last (t ++ spaces (count + 1)) =
      cellsFrom hidden last (t ++ spaces 1) + count := by
  induction t generalizing hidden last with
  | nil =>
    cases hidden with
    | true => exact (cellsFrom_spaces last count).trans (Nat.zero_add count).symm
    | false =>
      rw [List.nil_append, List.nil_append, cellsFrom_spaces, cellsFrom_spaces, Nat.add_comm]
  | cons c rest ih =>
    rw [List.cons_append, List.cons_append]
    cases hidden with
    | true => exact ih false last
    | false =>
      rw [cellsFrom, cellsFrom]
      split
      · exact ih true last
      split
      · rw [ih, Nat.add_assoc]
      split
      · exact ih false last
      · rw [ih, Nat.add_assoc]

theorem cells_append_spaces (t : Text) (count : Nat) :
    (t ++ spaces (count + 1)).cells = (t ++ spaces 1).cells + count :=
  cellsFrom_append_spaces false none t count

end Text

namespace Console

open Text

variable {c : CodePoint} {t line piece shown other : Text} {cell width : Nat}

/-- The character that asks for the next tab stop. -/
def tab : CodePoint := '\t'

/-- So many spaces lead from a piece of text to the next tab stop: at least one, and no more than it
takes. -/
structure Fills (piece : Text) (width : Nat) : Prop where
  positive : 0 < width
  stops : tabWidth ∣ (piece ++ spaces width).cells
  least : ∀ fewer, 0 < fewer → tabWidth ∣ (piece ++ spaces fewer).cells → width ≤ fewer

/-- How a line is shown: as it is, but with spaces up to the next tab stop for each tab. -/
inductive Spaced : Text → Text → Prop where
  | plain {line : Text} (noTab : tab ∉ line) : Spaced line line
  | filled {piece rest shown : Text} {width : Nat} (noTab : tab ∉ piece)
      (fills : Fills piece width) (later : Spaced rest shown) :
      Spaced (piece ++ tab :: rest) (piece ++ (spaces width ++ shown))

/-- How a text is shown: without the characters that are dropped, line by line, with a newline after
each. -/
def Prints (t shown : Text) : Prop :=
  ∃ rows, List.Forall₂ Spaced (Text.cutAt newline (t.filter fun c => !isDropped c)) rows ∧
    shown = .concat (rows.map (· ++ [newline]))

/-! ## Tab stops -/

/-- The spaces for a tab lead from one tab stop to the next. -/
theorem fills_missingCells (aligned : tabWidth ∣ cell) (piece : Text) :
    Fills piece (1 + missingCells (cellAfter cell piece)) ∧
      tabWidth ∣ cellAfter cell piece + missingCells (cellAfter cell piece) := by
  have after : cellAfter cell piece = cell + (piece ++ spaces 1).cells := rfl
  have grows := cells_append_spaces piece
  simp only [missingCells, tabWidth, after] at aligned ⊢
  refine ⟨⟨by omega, ?_, ?_⟩, by omega⟩
  · rw [Nat.add_comm 1, grows, tabWidth]
    omega
  · intro fewer positive stops
    obtain ⟨fewer, rfl⟩ := Nat.exists_eq_add_one_of_ne_zero (Nat.ne_of_gt positive)
    rw [grows, tabWidth] at stops
    omega

theorem Fills.unique {width' : Nat} (fills : Fills piece width) (fills' : Fills piece width') :
    width = width' :=
  Nat.le_antisymm (fills.least width' fills'.positive fills'.stops)
    (fills'.least width fills.positive fills.stops)

theorem joinPieces_cons (cell : Nat) (piece next : Text) (rest : List Text) :
    joinPieces cell (piece :: next :: rest) =
      piece ++ spaces (1 + missingCells (cellAfter cell piece)) ++
        joinPieces (cellAfter cell piece + missingCells (cellAfter cell piece)) (next :: rest) :=
  rfl

/-- Pieces between tabs are joined as the line with these tabs is shown. -/
theorem spaced_joinPieces {pieces : List Text} (aligned : tabWidth ∣ cell) (some : pieces ≠ [])
    (noTab : ∀ piece ∈ pieces, tab ∉ piece) :
    Spaced (joinWith [tab] pieces) (joinPieces cell pieces) := by
  induction pieces generalizing cell with
  | nil => exact absurd rfl some
  | cons piece rest ih =>
    obtain ⟨here, later⟩ := List.forall_mem_cons.mp noTab
    cases rest with
    | nil => simpa [joinWith, joinPieces] using Spaced.plain here
    | cons next rest =>
      obtain ⟨fills, aligned⟩ := fills_missingCells aligned piece
      rw [joinWith_cons, List.singleton_append, joinPieces_cons, List.append_assoc]
      exact .filled here fills (ih aligned (List.cons_ne_nil next rest) later)

theorem spaced_expandTabs (line : Text) : Spaced line (expandTabs line) := by
  have noTab : ∀ piece ∈ cutAt tab line, tab ∉ piece := fun _ => not_mem_of_mem_cutAt
  have spaced := spaced_joinPieces (Nat.dvd_zero tabWidth) (cutAt_ne_nil line) noTab
  rwa [joinWith_cutAt] at spaced

/-- A line is shown in one way only. -/
theorem Spaced.unique (spaced : Spaced line shown) (spaced' : Spaced line other) :
    shown = other := by
  induction spaced generalizing other with
  | plain noTab =>
    cases spaced' with
    | plain => rfl
    | filled => exact absurd (List.mem_append_right _ List.mem_cons_self) noTab
  | @filled piece rest shown width noTab fills later ih =>
    generalize cut : piece ++ tab :: rest = line at spaced'
    cases spaced' with
    | plain noTab' =>
      rw [← cut] at noTab'
      exact absurd (List.mem_append_right _ List.mem_cons_self) noTab'
    | filled noTab' fills' later' =>
      obtain ⟨rfl, rfl⟩ := eq_of_append_separator noTab noTab' cut
      rw [fills.unique fills', ih later']

/-- A character other than a space or a tab is shown just where the line has it, and a tab never. -/
theorem Spaced.mem_iff (spaced : Spaced line shown) (notSpace : c ≠ space) :
    c ∈ shown ↔ c ∈ line ∧ c ≠ tab := by
  induction spaced with
  | plain noTab =>
    refine ⟨fun member => ⟨member, ?_⟩, And.left⟩
    rintro rfl
    exact noTab member
  | @filled piece rest shown width noTab fills later ih =>
    have blank : c ∉ spaces width := fun member => notSpace (List.eq_of_mem_replicate member)
    have apart : c ∈ piece → c ≠ tab := by
      rintro member rfl
      exact noTab member
    simp only [List.mem_append, List.mem_cons, blank, false_or, ih]
    tauto

/-! ## Lines -/

theorem concat_newlines {rows : List Text} (some : rows ≠ []) :
    concat (rows.map (· ++ [newline])) = joinWith [newline] rows ++ [newline] := by
  induction rows with
  | nil => exact absurd rfl some
  | cons row rest ih =>
    cases rest with
    | nil => simp [concat, joinWith]
    | cons next rest =>
      have later := ih (List.cons_ne_nil next rest)
      rw [joinWith_cons, List.append_assoc, List.append_assoc, ← later]
      simp [concat]

theorem prints_render (t : Text) : Prints t (render t) := by
  refine ⟨(cutAt newline (t.filter fun c => !isDropped c)).map expandTabs, ?_, ?_⟩
  · rw [List.forall₂_map_right_iff]
    exact List.forall₂_same.mpr fun line _ => spaced_expandTabs line
  · exact (concat_newlines (by simp [cutAt_ne_nil])).symm

/-- A text is shown in one way only. -/
theorem Prints.unique (prints : Prints t shown) (prints' : Prints t other) : shown = other := by
  obtain ⟨rows, spaced, rfl⟩ := prints
  obtain ⟨rows', spaced', rfl⟩ := prints'
  have unique : Relator.RightUnique Spaced := fun _ _ _ => Spaced.unique
  rw [List.right_unique_forall₂' unique spaced spaced']

theorem mem_of_spaced {lines rows : List Text} (spaced : List.Forall₂ Spaced lines rows)
    (notSpace : c ≠ space) : (∃ row ∈ rows, c ∈ row) ↔ (∃ line ∈ lines, c ∈ line) ∧ c ≠ tab := by
  induction spaced with
  | nil => simp
  | cons first others ih =>
    rw [List.exists_mem_cons_iff, List.exists_mem_cons_iff, ih, first.mem_iff notSpace,
      or_and_right]

/-- A character other than a space or a newline is shown just if the text has it, unless it is a tab
or dropped. -/
theorem Prints.mem_iff (prints : Prints t shown) (notSpace : c ≠ space) (notNewline : c ≠ newline) :
    c ∈ shown ↔ c ∈ t ∧ c ≠ tab ∧ isDropped c = false := by
  obtain ⟨rows, spaced, rfl⟩ := prints
  have inRows : c ∈ concat (rows.map (· ++ [newline])) ↔ ∃ row ∈ rows, c ∈ row := by
    simp [concat, notNewline]
  rw [inRows, mem_of_spaced spaced notSpace, mem_cutAt_iff, List.mem_filter]
  simp only [Bool.not_eq_true']
  tauto

/-- A text is shown as it is, with a newline after it, just if it has no tab and no character that
is dropped. -/
theorem render_eq_iff :
    render t = t ++ [newline] ↔ ∀ c ∈ t, c ≠ tab ∧ isDropped c = false := by
  constructor
  · intro same c member
    by_cases notSpace : c = space
    · subst notSpace
      decide
    by_cases notNewline : c = newline
    · subst notNewline
      decide
    have shown : c ∈ render t := same ▸ List.mem_append_left _ member
    exact (((prints_render t).mem_iff notSpace notNewline).mp shown).2
  · intro kept
    have whole : (t.filter fun c => !isDropped c) = t := by
      rw [List.filter_eq_self]
      exact fun c member => by simp [(kept c member).2]
    refine (prints_render t).unique ⟨cutAt newline t, ?_, ?_⟩
    · rw [whole, List.forall₂_same]
      intro line member
      refine .plain fun inside => ?_
      exact (kept tab (mem_cutAt_iff.mp ⟨line, member, inside⟩).1).1 rfl
    · rw [concat_newlines (cutAt_ne_nil t), joinWith_cutAt]

/-! ## Printing -/

theorem checkScalars_cases (t : Text) :
    (Encoding.checkScalars t = .ok () ∧ ∀ c ∈ t, c.isSurrogate = false) ∨
      ∃ e, Encoding.checkScalars t = .error e ∧ ∃ c ∈ t, c.isSurrogate = true := by
  unfold Encoding.checkScalars
  split
  · rename_i nothing
    refine .inl ⟨rfl, fun c member => ?_⟩
    simpa using List.dropWhile_eq_nil_iff.mp nothing c member
  · rename_i c rest found
    refine .inr ⟨_, rfl, c, ?_, ?_⟩
    · exact (List.dropWhile_sublist _).subset (found ▸ List.mem_cons_self)
    · have stops := List.head_dropWhile_not (fun c : CodePoint => !c.isSurrogate) (l := t)
        (by simp [found])
      simpa [found] using stops

/-- Surrogates are shown as they are. -/
theorem mem_render_of_isSurrogate (surrogate : c.isSurrogate = true) : c ∈ render t ↔ c ∈ t := by
  have high : 0xD800 ≤ c.code := by
    simp only [CodePoint.isSurrogate, Bool.and_eq_true, decide_eq_true_eq] at surrogate
    exact surrogate.1
  have other : ∀ d : CodePoint, d.code < 0xD800 → c ≠ d := by
    rintro d low rfl
    omega
  have kept : isDropped c = false := by
    simp only [isDropped, List.contains_eq_mem, decide_eq_false_iff_not, List.mem_cons,
      List.not_mem_nil, or_false]
    omega
  rw [(prints_render t).mem_iff (other _ (by decide)) (other _ (by decide))]
  exact and_iff_left ⟨other _ (by decide), kept⟩

/-- What is shown for a text is printed, unless the text has undecodable bytes; then nothing is. -/
theorem print_ensures (t : Text) (w : World) :
    (print t).Ensures w
      (fun _ v => v = { w with printed := w.printed ++ render t } ∧ ∀ c ∈ t, c.isSurrogate = false)
      (fun _ v => v = w ∧ ∃ c ∈ t, c.isSurrogate = true) := by
  unfold print
  rw [Action.ensures_bind]
  rcases checkScalars_cases (render t) with ⟨read, scalar⟩ | ⟨e, read, c, member, surrogate⟩
  · rw [read]
    refine ⟨rfl, fun c member => ?_⟩
    rw [Bool.eq_false_iff]
    intro surrogate
    have shown := (mem_render_of_isSurrogate surrogate).mpr member
    rw [scalar c shown] at surrogate
    cases surrogate
  · rw [read]
    exact ⟨rfl, c, (mem_render_of_isSurrogate surrogate).mp member, surrogate⟩

/-- Every text is shown in one way, and so it is printed, unless it has undecodable bytes. The text
itself and a newline are printed just if the text has no tab and no character that is dropped. -/
theorem print_verbatim (t : Text) (w : World) :
    (∀ shown, Prints t shown ↔ shown = render t) ∧
      (print t).Ensures w
        (fun _ v => v = { w with printed := w.printed ++ render t } ∧
          ∀ c ∈ t, c.isSurrogate = false)
        (fun _ v => v = w ∧ ∃ c ∈ t, c.isSurrogate = true) ∧
      (render t = t ++ [newline] ↔ ∀ c ∈ t, c ≠ tab ∧ isDropped c = false) := by
  refine ⟨fun shown => ⟨fun prints => prints.unique (prints_render t), ?_⟩, print_ensures t w,
    render_eq_iff⟩
  rintro rfl
  exact prints_render t

/-- A tab is printed as spaces. -/
theorem tab_printed : (print "a\tb").run { tree := ⟨[]⟩ } =
      .ok () { tree := ⟨[]⟩, printed := "a       b\n" } ∧
    ("a       b\n" : Text) ≠ "a\tb" ++ [newline] := by
  exact ⟨rfl, by decide⟩

end Console

end Renewal
