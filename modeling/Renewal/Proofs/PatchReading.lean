import Renewal.Proofs.HunkDivision
import Renewal.Proofs.PrintedLines
import Renewal.Proofs.UnifiedDiff

/-! # Reading a unified diff

What a diff prints can be read again as hunks: lines with signs under a header that tells a range of
the old lines and one of the new lines. The headers of a diff without regard to white space are
truthful, and putting what its hunks show in place of the old ranges gives the new lines, white
space apart (`Diff.unified_truthful`).
-/

namespace Renewal.Diff

/-- A line without the newline at its end. -/
def openLine (line : Text) : Text :=
  if line.getLast? = some newline then line.dropLast else line

/-- A range of lines. -/
structure LineRange where
  /-- How many lines are before it. -/
  start : Nat
  length : Nat
deriving DecidableEq

namespace LineRange

/-- Where a range stops. -/
def stop (r : LineRange) : Nat :=
  r.start + r.length

/-- The lines of a range. -/
def of (r : LineRange) (lines : List Text) : List Text :=
  (lines.drop r.start).take r.length

/-- How a header tells a range: by the number of its first line, or of the line before it if it has
none, and its length, unless it is a single line. -/
def text (r : LineRange) : Text :=
  let number := if r.length = 0 then r.start else r.start + 1
  if r.length = 1 then .ofNat number else .concat [.ofNat number, ",", .ofNat r.length]

end LineRange

/-- What the sign of a line tells. -/
inductive Sign where
  | kept
  | removed
  | added
deriving DecidableEq

/-- How a sign is printed. -/
def Sign.mark : Sign → CodePoint
  | .kept => ' '
  | .removed => '-'
  | .added => '+'

/-- A line of a hunk. -/
structure ShownLine where
  sign : Sign
  content : Text
deriving DecidableEq

namespace ShownLine

/-- How a line is printed, its newline apart. -/
def text (line : ShownLine) : Text :=
  line.sign.mark :: line.content

/-- The lines that were there before. -/
def before (lines : List ShownLine) : List Text :=
  (lines.filter (·.sign ≠ .added)).map content

/-- The lines that are there afterwards. -/
def after (lines : List ShownLine) : List Text :=
  (lines.filter (·.sign ≠ .removed)).map content

/-- The lines that are new. -/
def additions (lines : List ShownLine) : List Text :=
  (lines.filter (·.sign = .added)).map content

end ShownLine

/-- A hunk as it can be read. -/
structure ShownHunk where
  old : LineRange
  new : LineRange
  body : List ShownLine
deriving DecidableEq

namespace ShownHunk

/-- The line before the body of a hunk. -/
def header (h : ShownHunk) : Text :=
  .concat ["@@ -", h.old.text, " +", h.new.text, " @@"]

/-- The lines by which a hunk is printed. -/
def lines (h : ShownHunk) : List Text :=
  h.header :: h.body.map ShownLine.text

/-- The header of a hunk tells which old lines it shows, and how many new lines take their place;
the lines that it adds are among these. -/
structure Truthful (old new : List Text) (h : ShownHunk) : Prop where
  oldEnd : h.old.stop ≤ old.length
  newEnd : h.new.stop ≤ new.length
  before : ShownLine.before h.body = (h.old.of old).map openLine
  beforeLength : (ShownLine.before h.body).length = h.old.length
  afterLength : (ShownLine.after h.body).length = h.new.length
  additions : (ShownLine.additions h.body).Sublist ((h.new.of new).map openLine)

/-- A hunk ends before another starts, in the old lines and in the new ones. -/
def Precedes (h h' : ShownHunk) : Prop :=
  h.old.stop < h'.old.start ∧ h.new.stop < h'.new.start

end ShownHunk

/-- The old lines from the place `i` on, with the ranges of hunks replaced by what the hunks leave
there. -/
def patched (old : List Text) : (i : Nat) → List ShownHunk → List Text
  | i, [] => old.drop i
  | i, h :: rest =>
    range old i h.old.start ++ (ShownLine.after h.body ++ patched old h.old.stop rest)

section Lines

variable {line : Text}

/-- A line is closed by a newline, or it is open already. -/
theorem openLine_cases (line : Text) :
    line = openLine line ++ [newline] ∨ openLine line = line ∧ line.getLast? ≠ some newline := by
  unfold openLine
  split
  · rename_i closed
    exact .inl (List.dropLast_append_getLast? _ closed).symm
  · rename_i unclosed
    exact .inr ⟨rfl, unclosed⟩

theorem closeLine_append (front : Text) : closeLine (front ++ [newline]) = front ++ [newline] := by
  rw [closeLine, if_pos (by rw [List.getLast?_concat]; rfl)]

theorem closeLine_signed (sign : Sign) (line : Text) :
    closeLine (sign.mark :: line) = ShownLine.text ⟨sign, openLine line⟩ ++ [newline] := by
  rcases openLine_cases line with closed | ⟨same, unclosed⟩
  · rw [closed, ← List.cons_append, closeLine_append, ← closed]
    rfl
  · have last : (sign.mark :: line).getLast? ≠ some newline := by
      cases line with
      | nil => cases sign <;> decide
      | cons c rest => rwa [List.getLast?_cons_cons]
    rw [same]
    exact if_neg last

theorem squeeze_openLine (line : Text) : (openLine line).squeeze = line.squeeze := by
  rcases openLine_cases line with closed | ⟨same, -⟩
  · conv_rhs => rw [closed, Text.squeeze, List.filter_append]
    exact (List.append_nil _).symm
  · rw [same]

theorem newline_not_mem_openLine (plain : newline ∉ line.dropLast) : newline ∉ openLine line := by
  rcases openLine_cases line with closed | ⟨same, unclosed⟩
  · rwa [closed, List.dropLast_concat] at plain
  · rw [same]
    intro member
    obtain ⟨front, last, rfl⟩ :=
      (List.eq_nil_or_concat line).resolve_left (List.ne_nil_of_mem member)
    rw [List.concat_eq_append] at *
    rw [List.dropLast_concat] at plain
    rw [List.getLast?_concat] at unclosed
    rcases List.mem_append.mp member with inside | here
    · exact plain inside
    · exact unclosed (congrArg some (List.mem_singleton.mp here).symm)

end Lines

namespace LineRange

/-- A header tells a range by the places where it starts and stops. -/
theorem rangeText_eq {i k : Nat} (ordered : i ≤ k) : rangeText i k = text ⟨i, k - i⟩ := by
  have difference : (k : Int) - i = ((k - i : Nat) : Int) := by omega
  rw [rangeText, text, difference]
  dsimp only
  by_cases one : k - i = 1
  · rw [if_pos (by omega), if_pos one, if_neg (by omega)]
    rfl
  · rw [if_neg (by omega), if_neg one]
    by_cases none : k - i = 0
    · rw [if_pos (by omega), if_pos none]
      rfl
    · rw [if_neg (by omega), if_neg none]
      rfl

theorem newline_not_mem_text (r : LineRange) : newline ∉ r.text := by
  have comma : newline ∉ (("," : Text)) := by decide
  have number : ∀ n, newline ∉ Text.ofNat n := Text.not_mem_ofNat (by decide)
  unfold text
  dsimp only
  split
  · exact number _
  · simp [Text.concat, number, comma]

theorem stop_eq {i k : Nat} (ordered : i ≤ k) : stop ⟨i, k - i⟩ = k :=
  Nat.add_sub_cancel' ordered

theorem of_eq (i k : Nat) (lines : List Text) : of ⟨i, k - i⟩ lines = range lines i k := by
  rw [of, range, List.drop_take]

end LineRange

theorem ShownHunk.newline_not_mem_header (h : ShownHunk) : newline ∉ h.header := by
  have signs : newline ∉ ("@@ -" : Text) ∧ newline ∉ (" +" : Text) ∧ newline ∉ (" @@" : Text) := by
    decide
  simp [header, Text.concat, signs, LineRange.newline_not_mem_text]

section Shown

variable {old new : List Text} {e : Edit} {es : List Edit} {i j n m : Nat}

/-- The lines of a range with a sign. -/
def withSign (sign : Sign) (lines : List Text) (i k : Nat) : List ShownLine :=
  (range lines i k).map fun line => ⟨sign, openLine line⟩

/-- The lines that an edit shows. -/
def Edit.shown (old new : List Text) (e : Edit) : List ShownLine :=
  match e.kind with
  | .equal => withSign .kept old e.leftStart e.leftStop
  | .replace => withSign .removed old e.leftStart e.leftStop ++
      withSign .added new e.rightStart e.rightStop
  | .delete => withSign .removed old e.leftStart e.leftStop
  | .insert => withSign .added new e.rightStart e.rightStop

theorem map_closeLine_signed (sign : Sign) {mark : Char} (same : sign.mark = mark)
    (lines : List Text) (i k : Nat) :
    (signed mark lines i k).map closeLine =
      (withSign sign lines i k).map (·.text ++ [newline]) := by
  have shows : signed mark lines i k = (range lines i k).map (sign.mark :: ·) := by
    rw [same]
    rfl
  rw [shows, withSign, List.map_map, List.map_map]
  exact List.map_congr_left fun line _ => closeLine_signed sign line

theorem Edit.map_closeLine_lines (old new : List Text) (e : Edit) :
    (e.part.lines old new).map closeLine = (e.shown old new).map (·.text ++ [newline]) := by
  obtain ⟨kind, _, _, _, _⟩ := e
  have removed := map_closeLine_signed .removed rfl old
  have added := map_closeLine_signed .added rfl new
  cases kind with
  | equal => exact map_closeLine_signed .kept rfl old _ _
  | replace => simp only [part, Part.lines, shown, List.map_append, removed, added]
  | delete => exact removed _ _
  | insert => exact added _ _

/-- Of lines with one sign, all or none are chosen by their signs. -/
theorem map_content_filter (chosen : Sign → Bool) (sign : Sign) (lines : List Text) (i k : Nat) :
    ((withSign sign lines i k).filter fun line => chosen line.sign).map ShownLine.content =
      if chosen sign then (range lines i k).map openLine else [] := by
  have each : ∀ line ∈ withSign sign lines i k, line.sign = sign := by
    intro line member
    obtain ⟨_, -, rfl⟩ := List.mem_map.mp member
    rfl
  by_cases all : chosen sign = true
  · rw [if_pos all, List.filter_eq_self.mpr fun line member => by rw [each line member, all],
      withSign, List.map_map]
    rfl
  · rw [if_neg all, List.filter_eq_nil_iff.mpr fun line member => by rwa [each line member]]
    rfl

/-- The lines that an edit adds are new lines of its range. -/
theorem Edit.additions_shown (old new : List Text) (e : Edit) :
    (ShownLine.additions (e.shown old new)).Sublist
      ((range new e.rightStart e.rightStop).map openLine) := by
  have chosen := map_content_filter (fun sign => decide (sign = .added))
  cases kind : e.kind with
  | equal | delete =>
    simp only [shown, kind, ShownLine.additions, chosen]
    exact List.nil_sublist _
  | replace =>
    simp only [shown, kind, ShownLine.additions, List.filter_append, List.map_append, chosen]
    exact List.Sublist.refl _
  | insert =>
    simp only [shown, kind, ShownLine.additions, chosen]
    exact List.Sublist.refl _

namespace Edit.Covers

variable (covers : e.Covers (old.map Text.squeeze) (new.map Text.squeeze))

include covers

/-- The old lines that an edit shows are those of its range. -/
theorem before_shown :
    ShownLine.before (e.shown old new) = (range old e.leftStart e.leftStop).map openLine := by
  have chosen := map_content_filter (fun sign => decide (sign ≠ .added))
  cases kind : e.kind with
  | equal | delete =>
    simp only [shown, kind, ShownLine.before, chosen]
    rfl
  | replace =>
    simp only [shown, kind, ShownLine.before, List.filter_append, List.map_append, chosen]
    exact List.append_nil _
  | insert =>
    simp only [shown, kind, ShownLine.before, chosen, covers.insert kind, range_self]
    rfl

/-- The lines that an edit leaves are the new ones of its range, white space apart. -/
theorem squeeze_after_shown : (ShownLine.after (e.shown old new)).map Text.squeeze =
    range (new.map Text.squeeze) e.rightStart e.rightStop := by
  have chosen := map_content_filter (fun sign => decide (sign ≠ .removed))
  have squeezed : ∀ lines : List Text, ∀ i k, ((range lines i k).map openLine).map Text.squeeze =
      range (lines.map Text.squeeze) i k := by
    intro lines i k
    rw [List.map_map, ← map_range]
    exact List.map_congr_left fun line _ => squeeze_openLine line
  cases kind : e.kind with
  | equal =>
    simp only [shown, kind, ShownLine.after, chosen]
    exact (squeezed old _ _).trans (covers.equal kind)
  | replace =>
    simp only [shown, kind, ShownLine.after, List.filter_append, List.map_append, chosen]
    exact squeezed new _ _
  | delete =>
    simp only [shown, kind, ShownLine.after, chosen, covers.delete kind, range_self]
    rfl
  | insert =>
    simp only [shown, kind, ShownLine.after, chosen]
    exact squeezed new _ _

end Edit.Covers

/-- The range of a stretch of edits. -/
def spanOf (start stop : Edit → Nat) (es : List Edit) : LineRange :=
  let first := (es.head?.map start).getD 0
  ⟨first, (es.getLast?.map stop).getD 0 - first⟩

/-- The hunk that shows a stretch of edits. -/
def shownHunk (old new : List Text) (es : List Edit) : ShownHunk where
  old := spanOf Edit.leftStart Edit.leftStop es
  new := spanOf Edit.rightStart Edit.rightStop es
  body := es.flatMap (Edit.shown old new)

namespace Spans

variable (spans : Spans (old.map Text.squeeze) (new.map Text.squeeze) n m i j es)

include spans

theorem before_flatMap :
    ShownLine.before (es.flatMap (Edit.shown old new)) = (range old i n).map openLine := by
  induction es generalizing i j with
  | nil => rw [spans.1, range_self]; rfl
  | cons e es ih =>
    obtain ⟨rfl, rfl, covers, rest⟩ := spans
    have here := covers.before_shown
    have later := ih rest
    rw [ShownLine.before] at here later ⊢
    rw [List.flatMap_cons, List.filter_append, List.map_append, here, later, ← List.map_append,
      range_append covers.left rest.le.1]

theorem squeeze_after_flatMap :
    (ShownLine.after (es.flatMap (Edit.shown old new))).map Text.squeeze =
      range (new.map Text.squeeze) j m := by
  induction es generalizing i j with
  | nil => rw [spans.2, range_self]; rfl
  | cons e es ih =>
    obtain ⟨rfl, rfl, covers, rest⟩ := spans
    have here := covers.squeeze_after_shown
    have later := ih rest
    rw [ShownLine.after] at here later ⊢
    rw [List.flatMap_cons, List.filter_append, List.map_append, List.map_append, here, later,
      range_append covers.right rest.le.2]

theorem additions_flatMap : (ShownLine.additions (es.flatMap (Edit.shown old new))).Sublist
    ((range new j m).map openLine) := by
  induction es generalizing i j with
  | nil => exact List.nil_sublist _
  | cons e es ih =>
    obtain ⟨rfl, rfl, covers, rest⟩ := spans
    have both := (e.additions_shown old new).append (ih rest)
    rw [← List.map_append, range_append covers.right rest.le.2] at both
    simpa only [ShownLine.additions, List.flatMap_cons, List.filter_append, List.map_append]
      using both

/-- The header of a stretch of edits tells where they start and stop. -/
theorem ranges (some : es ≠ []) :
    (shownHunk old new es).old = ⟨i, n - i⟩ ∧ (shownHunk old new es).new = ⟨j, m - j⟩ := by
  obtain ⟨leftStart, rightStart⟩ := spans.head? some
  obtain ⟨leftStop, rightStop⟩ := spans.getLast? some
  simp [shownHunk, spanOf, leftStart, rightStart, leftStop, rightStop]

end Spans

/-- A stretch of edits is shown by the lines of its hunk. -/
theorem Spans.map_closeLine_lines
    (spans : Spans (old.map Text.squeeze) (new.map Text.squeeze) n m i j es) (some : es ≠ []) :
    (Hunk.lines old new (es.map Edit.part)).map closeLine =
      (shownHunk old new es).lines.map (· ++ [newline]) := by
  have body : ∀ es : List Edit, ((es.map Edit.part).flatMap (Part.lines old new)).map closeLine =
      (es.flatMap (Edit.shown old new)).map (·.text ++ [newline]) := by
    intro es
    induction es with
    | nil => rfl
    | cons e es ih =>
      rw [List.map_cons, List.flatMap_cons, List.map_append, ih, e.map_closeLine_lines,
        List.flatMap_cons, List.map_append]
  have header : Hunk.header (es.map Edit.part) = (shownHunk old new es).header ++ [newline] := by
    obtain ⟨first, isFirst⟩ := Option.isSome_iff_exists.mp (List.isSome_head?.mpr some)
    obtain ⟨last, isLast⟩ := Option.isSome_iff_exists.mp (List.getLast?_isSome.mpr some)
    obtain ⟨leftStart, rightStart⟩ := spans.head? some
    obtain ⟨leftStop, rightStop⟩ := spans.getLast? some
    rw [isFirst, Option.map_some, Option.some_inj] at leftStart rightStart
    rw [isLast, Option.map_some, Option.some_inj] at leftStop rightStop
    obtain ⟨left, right⟩ := spans.le
    obtain ⟨oldRange, newRange⟩ := spans.ranges some
    simp only [Hunk.header, List.head?_map, List.getLast?_map, isFirst, isLast, Option.map_some,
      Option.getD_some, Edit.part, leftStart, rightStart, leftStop, rightStop,
      LineRange.rangeText_eq left, LineRange.rangeText_eq right, ShownHunk.header, oldRange,
      newRange]
    simp only [Text.concat, List.flatten_cons, List.flatten_nil, List.append_nil,
      List.append_assoc]
    rfl
  rw [Hunk.lines, List.map_cons, body, header, closeLine_append, ShownHunk.lines, List.map_cons,
    List.map_map]
  rfl

namespace Spread

variable {hs : List (List Edit)} {least : Nat}
  (spread : Spread (old.map Text.squeeze) (new.map Text.squeeze) least i j hs)

include spread

theorem truthful : ∀ h ∈ hs.map (shownHunk old new), h.Truthful old new := by
  induction hs generalizing least i j with
  | nil => simp
  | cons es rest ih =>
    obtain ⟨i', j', k, l, -, -, some, spans, later⟩ := spread
    intro h member
    rcases List.mem_cons.mp member with rfl | member
    · obtain ⟨oldRange, newRange⟩ := spans.ranges some
      obtain ⟨left, right⟩ := spans.le
      obtain ⟨oldEnd, newEnd⟩ := later.le
      rw [List.length_map] at oldEnd newEnd
      have before := spans.before_flatMap
      have after := congrArg List.length spans.squeeze_after_flatMap
      rw [List.length_map, length_range (by rwa [List.length_map])] at after
      refine ⟨?_, ?_, ?_, ?_, ?_, ?_⟩
      · rwa [oldRange, LineRange.stop_eq left]
      · rwa [newRange, LineRange.stop_eq right]
      · rw [oldRange, LineRange.of_eq]
        exact before
      · rw [oldRange]
        exact (congrArg List.length before).trans (by rw [List.length_map, length_range oldEnd])
      · rw [newRange]
        exact after
      · rw [newRange, LineRange.of_eq]
        exact spans.additions_flatMap
    · exact ih later h member

/-- No hunk starts before the place from which on they are. -/
theorem start_le : ∀ h ∈ hs.map (shownHunk old new),
    i + least ≤ h.old.start ∧ j + least ≤ h.new.start := by
  induction hs generalizing least i j with
  | nil => simp
  | cons es rest ih =>
    obtain ⟨i', j', k, l, enough, alike, some, spans, later⟩ := spread
    have same := alike.length_eq
    obtain ⟨left, right⟩ := spans.le
    intro h member
    rcases List.mem_cons.mp member with rfl | member
    · obtain ⟨oldRange, newRange⟩ := spans.ranges some
      rw [oldRange, newRange]
      refine ⟨enough, ?_⟩
      have := alike.right
      dsimp only at this ⊢
      omega
    · obtain ⟨oldStart, newStart⟩ := ih later h member
      have := alike.right
      dsimp only at this
      exact ⟨by omega, by omega⟩

theorem precedes : (hs.map (shownHunk old new)).Pairwise ShownHunk.Precedes := by
  induction hs generalizing least i j with
  | nil => exact .nil
  | cons es rest ih =>
    obtain ⟨i', j', k, l, -, -, some, spans, later⟩ := spread
    refine .cons (fun h member => ?_) (ih later)
    obtain ⟨oldRange, newRange⟩ := spans.ranges some
    obtain ⟨left, right⟩ := spans.le
    obtain ⟨oldStart, newStart⟩ := later.start_le h member
    rw [ShownHunk.Precedes, oldRange, newRange, LineRange.stop_eq left, LineRange.stop_eq right]
    exact ⟨oldStart, newStart⟩

theorem squeeze_patched : (patched old i (hs.map (shownHunk old new))).map Text.squeeze =
    (new.map Text.squeeze).drop j := by
  induction hs generalizing least i j with
  | nil =>
    have same := spread.equal rfl
    have whole : ∀ (lines : List Text) (i : Nat), range lines i lines.length = lines.drop i := by
      intro lines i
      rw [range, List.take_length]
    dsimp only at same
    rw [whole, whole] at same
    rw [List.map_nil, patched, List.map_drop, same]
  | cons es rest ih =>
    obtain ⟨i', j', k, l, -, alike, some, spans, later⟩ := spread
    obtain ⟨left, right⟩ := spans.le
    obtain ⟨oldRange, -⟩ := spans.ranges some
    have stop : (shownHunk old new es).old.stop = k := by
      rw [oldRange, LineRange.stop_eq left]
    have same : range (old.map Text.squeeze) i i' = range (new.map Text.squeeze) j j' :=
      alike.equal rfl
    have body : (ShownLine.after (shownHunk old new es).body).map Text.squeeze = _ :=
      spans.squeeze_after_flatMap
    rw [List.map_cons, patched, stop, oldRange, List.map_append, List.map_append, map_range, same,
      body, ih later, range_append_drop right, range_append_drop alike.right]

/-- Hunks are printed by their lines. -/
theorem map_closeLine_lines :
    ((hs.map (List.map Edit.part)).flatMap (Hunk.lines old new)).map closeLine =
      ((hs.map (shownHunk old new)).flatMap ShownHunk.lines).map (· ++ [newline]) := by
  induction hs generalizing least i j with
  | nil => rfl
  | cons es rest ih =>
    obtain ⟨i', j', k, l, -, -, some, spans, later⟩ := spread
    rw [List.map_cons, List.flatMap_cons, List.map_append, spans.map_closeLine_lines some,
      ih later, List.map_cons, List.flatMap_cons, List.map_append]

end Spread

/-- What an edit shows are old and new lines. -/
theorem Edit.exists_of_mem_shown {line : ShownLine} (member : line ∈ e.shown old new) :
    ∃ shown ∈ old ++ new, line.content = openLine shown := by
  have inside : ∀ {sign lines i k}, line ∈ withSign sign lines i k →
      ∃ shown ∈ lines, line.content = openLine shown := by
    intro sign lines i k member
    obtain ⟨shown, inside, rfl⟩ := List.mem_map.mp member
    exact ⟨shown, List.mem_of_mem_take (List.mem_of_mem_drop inside), rfl⟩
  have ofOld : ∀ {sign i k}, line ∈ withSign sign old i k →
      ∃ shown ∈ old ++ new, line.content = openLine shown := by
    intro sign i k member
    obtain ⟨shown, listed, same⟩ := inside member
    exact ⟨shown, List.mem_append_left _ listed, same⟩
  have ofNew : ∀ {sign i k}, line ∈ withSign sign new i k →
      ∃ shown ∈ old ++ new, line.content = openLine shown := by
    intro sign i k member
    obtain ⟨shown, listed, same⟩ := inside member
    exact ⟨shown, List.mem_append_right _ listed, same⟩
  unfold shown at member
  split at member
  · exact ofOld member
  · exact (List.mem_append.mp member).elim ofOld ofNew
  · exact ofOld member
  · exact ofNew member

theorem newline_not_mem_lines (plain : ∀ line ∈ old ++ new, newline ∉ line.dropLast)
    (es : List Edit) : ∀ line ∈ (shownHunk old new es).lines, newline ∉ line := by
  intro line member
  rcases List.mem_cons.mp member with rfl | member
  · exact ShownHunk.newline_not_mem_header _
  · obtain ⟨shown, inside, rfl⟩ := List.mem_map.mp member
    obtain ⟨e, -, inside⟩ := List.mem_flatMap.mp inside
    obtain ⟨content, listed, same⟩ := Edit.exists_of_mem_shown inside
    have mark : newline ≠ shown.sign.mark := by
      cases shown.sign <;> decide
    have rest : newline ∉ shown.content := same ▸ newline_not_mem_openLine (plain content listed)
    exact List.not_mem_cons_of_ne_of_not_mem mark rest

end Shown

/-- A diff without regard to white space is empty if and only if the lines are equal but for white
space. Otherwise, after the names of the files, it shows hunks, one after the other and apart from
each other, with truthful headers; and if they are put in place of the old ranges, the new lines are
left, white space apart. -/
theorem unified_truthful (old new : List Text) (oldName newName : Text) (context : Nat)
    (plain : ∀ line ∈ old ++ new, newline ∉ line.dropLast) :
    (unified old new oldName newName context true = [] ↔
      old.map Text.squeeze = new.map Text.squeeze) ∧
    (old.map Text.squeeze ≠ new.map Text.squeeze → ∃ body hs,
      unified old new oldName newName context true =
        .concat ["--- ", oldName, "\n", "+++ ", newName, "\n", body] ∧
      body.cutAt newline = hs.flatMap ShownHunk.lines ++ [[]] ∧ hs ≠ [] ∧
      (∀ h ∈ hs, h.Truthful old new) ∧ hs.Pairwise ShownHunk.Precedes ∧
      (patched old 0 hs).map Text.squeeze = new.map Text.squeeze) := by
  refine ⟨unifiedIgnoringBlanks_eq_nil_iff old new oldName newName (Int.natCast_nonneg context),
    fun different => ?_⟩
  obtain ⟨hs, same, spread⟩ := exists_hunks (fun _ => true) different context
  have some : hs ≠ [] := by
    rintro rfl
    exact different (eq_of_edits _ (equal_of_hunks_eq_nil same))
  refine ⟨Text.concat (((hs.map (shownHunk old new)).flatMap ShownHunk.lines).map
    (· ++ [newline])), hs.map (shownHunk old new), ?_, Text.cutAt_newline fun line member => ?_,
    by simpa using some, spread.truthful, spread.precedes, spread.squeeze_patched⟩
  · have named : ∀ sign name : Text, closeLine (.concat [sign, name, "\n"]) =
        .concat [sign, name, "\n"] := by
      intro sign name
      have cut : Text.concat [sign, name, "\n"] = (sign ++ name) ++ [newline] := by
        simp only [Text.concat, List.flatten_cons, List.flatten_nil, List.append_assoc]
        rfl
      rw [cut, closeLine_append]
    rw [unified, if_pos rfl, unifiedIgnoringBlanks, same, diffLines,
      if_neg (by simpa using some), List.map_cons, List.map_cons, spread.map_closeLine_lines,
      named, named]
    simp only [Text.concat, List.flatten_cons, List.flatten_nil, List.append_assoc,
      List.append_nil]
  · obtain ⟨h, member, inside⟩ := List.mem_flatMap.mp member
    obtain ⟨es, -, rfl⟩ := List.mem_map.mp member
    exact newline_not_mem_lines plain es line inside

theorem unified_truthful_swap :
    let old : List Text := ["a b\n", "c\n", "d"]
    let new : List Text := ["ab\n", "x\n", "d\n"]
    (∀ line ∈ old ++ new, newline ∉ line.dropLast) ∧ ∃ body hs,
      unified old new "o" "n" (0 : Nat) true =
        .concat ["--- ", "o", "\n", "+++ ", "n", "\n", body] ∧
      body.cutAt newline = hs.flatMap ShownHunk.lines ++ [[]] ∧ hs ≠ [] ∧
      (∀ h ∈ hs, h.Truthful old new) ∧ hs.Pairwise ShownHunk.Precedes ∧
      (patched old 0 hs).map Text.squeeze = new.map Text.squeeze := by
  intro old new
  have plain : ∀ line ∈ old ++ new, newline ∉ line.dropLast := by decide
  exact ⟨plain, (unified_truthful old new "o" "n" 0 plain).2 (by decide)⟩

end Renewal.Diff
