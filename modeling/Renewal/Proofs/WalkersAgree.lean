import Renewal.Proofs.PrintedLines
import Renewal.Proofs.Walk

/-! # When the two walkers agree

One walker lists directories, the other reads the lines that a program prints. If the program prints
the path of each file that matches, both give the same files in the same order, just if nothing
stops the walk through the directories, and no name on the way holds a line end of any kind or bytes
that are no characters (`Walker.walks_agree_iff`). A line end within a name makes two paths of one,
and bytes that are no characters cannot be read at all.
-/

namespace Renewal

open Renewal.Tree World FileSystem

namespace Path

/-- No name of a path holds a line end. -/
def OneLine (p : Path) : Prop :=
  ∀ name ∈ p.names, ∀ c ∈ name, c.endsLine = false

/-- The names of a path are made of characters. -/
def Scalar (p : Path) : Prop :=
  ∀ name ∈ p.names, ∀ c ∈ name, c.isSurrogate = false

/-- However a path is written, what is no dot and no slash is within its names. -/
theorem forall_names_ofText_iff {bad : CodePoint → Bool} (slash : bad separator = false)
    (dot : bad '.' = false) {t : Text} :
    (∀ name ∈ (ofText t).names, ∀ c ∈ name, bad c = false) ↔ ∀ c ∈ t, bad c = false := by
  constructor
  · intro plain c member
    by_contra isBad
    have notSlash : c ≠ separator := by
      rintro rfl
      exact isBad slash
    obtain ⟨part, cut, inside⟩ := Text.mem_cutAt_iff.mpr ⟨member, notSlash⟩
    apply isBad
    apply plain part _ c inside
    refine List.mem_filter.mpr ⟨cut, ?_⟩
    have notDot : part ≠ ("." : Text) := by
      rintro rfl
      obtain rfl := List.mem_singleton.mp inside
      exact isBad dot
    simp [List.ne_nil_of_mem inside, notDot]
  · intro plain name member c inside
    apply plain
    exact (Text.mem_cutAt_iff.mp ⟨name, List.mem_of_mem_filter member, inside⟩).1

theorem oneLine_ofText_iff {t : Text} : (ofText t).OneLine ↔ ∀ c ∈ t, c.endsLine = false :=
  forall_names_ofText_iff rfl rfl

theorem scalar_ofText_iff {t : Text} : (ofText t).Scalar ↔ ∀ c ∈ t, c.isSurrogate = false :=
  forall_names_ofText_iff rfl rfl

end Path

namespace Walker

variable {w : World} {root path : Path} {pattern : Text} {lines : List Text}

/-- A path leads from a root to a file whose name matches a pattern. -/
def IsMatch (w : World) (root : Path) (pattern : Text) (path : Path) : Prop :=
  ∃ names name data mode, path = root.below (names ++ [name]) ∧
    w.tree.get? (w.placeOf root ++ names ++ [name]) = some (.file data mode) ∧
    globMatches pattern (Utf8.decode name) = true

/-- The lines of a program that has found the files whose names match: the path of each, written in
any way, in any order. -/
structure Prints (w : World) (root : Path) (pattern : Text) (lines : List Text) : Prop where
  once : (lines.map Path.ofText).Nodup
  mem_iff : ∀ path, path ∈ lines.map Path.ofText ↔ IsMatch w root pattern path

/-- The paths that are read from what a program prints. -/
def pathsIn (output : Text) : List Path :=
  ((((output.lines.map Text.dropLineEnd).filter fun line => !line.isEmpty).map
    Path.ofText).mergeSort Path.le)

/-- What a program prints that prints lines. -/
def printed (lines : List Text) : Bytes :=
  lines.flatMap fun line => Encoding.nameBytes line ++ [0x0A]

theorem printed_eq (lines : List Text) :
    printed lines = Encoding.nameBytes (.concat (lines.map (· ++ [newline]))) := by
  induction lines with
  | nil => rfl
  | cons line rest ih =>
    rw [Text.concat_newline_cons, Encoding.nameBytes_append, Encoding.nameBytes_cons, ← ih, printed,
      List.flatMap_cons, List.append_assoc]
    rfl

/-- A program that ends well gives the paths in its output, if all that it prints is made of
characters. -/
theorem walk_find_eq_ok_iff {bytes : Bytes} {errors : Printed}
    (finishes : w.programs.head? = some (.finished 0 (.bytes bytes) errors)) (command : List Text)
    (timeout : Option Int) (root : Path) (pattern : Text) {files : List Path} :
    (∃ v, ((find command timeout).walk root pattern).run w = .ok files v) ↔
      errors.read.isOk = true ∧ ∃ t, Utf8.Spelled bytes t ∧ pathsIn t.unifyNewlines = files := by
  have ends : w.programs.headD (.finished 0 (.bytes []) (.bytes [])) =
      .finished 0 (.bytes bytes) errors := by
    rw [List.headD_eq_head?_getD, finishes, Option.getD_some]
  have runs : ∀ command, ∃ v, (Action.runProgram command timeout).run w =
      .ok (.finished 0 (.bytes bytes) errors) v := fun command => ⟨_, by rw [← ends]; rfl⟩
  obtain ⟨v, runs⟩ :=
    runs (command ++ (["-L", root.text, "-type", "f", "-name", pattern] : List Text))
  unfold walk walkByProgram
  rw [EStateM.run_bind, runs]
  simp only [show (Printed.bytes bytes).read = (Encoding.decodeStrict bytes).map Text.unifyNewlines
    from rfl, ← Utf8.decodeStrict_eq_ok_iff]
  cases Encoding.decodeStrict bytes with
  | error e =>
    refine iff_of_false ?_ (by simp)
    rintro ⟨u, returns⟩
    cases returns
  | ok t =>
    cases errors.read with
    | error e =>
      refine iff_of_false ?_ (by simp [Except.isOk, Except.toBool])
      rintro ⟨u, returns⟩
      cases returns
    | ok told =>
      constructor
      · rintro ⟨u, returns⟩
        cases returns
        exact ⟨rfl, t, rfl, rfl⟩
      · rintro ⟨-, _, ⟨⟩, rfl⟩
        exact ⟨v, rfl⟩

theorem oneLine_of_mem_pathsIn {output : Text} (member : path ∈ pathsIn output) : path.OneLine := by
  rw [pathsIn, List.mem_mergeSort] at member
  obtain ⟨line, read, rfl⟩ := List.mem_map.mp member
  obtain ⟨whole, inside, rfl⟩ := List.mem_map.mp (List.mem_of_mem_filter read)
  exact Path.oneLine_ofText_iff.mpr (Text.plain_of_mem_lines inside)

theorem scalar_of_mem_pathsIn {output : Text} (scalar : ∀ c ∈ output, c.isSurrogate = false)
    (member : path ∈ pathsIn output) : path.Scalar := by
  rw [pathsIn, List.mem_mergeSort] at member
  obtain ⟨line, read, rfl⟩ := List.mem_map.mp member
  obtain ⟨whole, inside, rfl⟩ := List.mem_map.mp (List.mem_of_mem_filter read)
  refine Path.scalar_ofText_iff.mpr fun c among => scalar c ?_
  rw [← Text.flatten_lines output]
  exact List.mem_flatten_of_mem inside ((Text.dropLineEnd_prefix whole).subset among)

theorem Prints.ne_nil (prints : Prints w root pattern lines) {line : Text} (member : line ∈ lines) :
    line ≠ [] := by
  rintro rfl
  obtain ⟨names, name, -, -, same, -⟩ :=
    (prints.mem_iff _).mp (List.mem_map_of_mem member)
  have none := congrArg Path.names same
  simp [Path.below, show (Path.ofText []).names = [] from rfl] at none

/-- Without line ends in the names, the paths are read that were printed. -/
theorem Prints.pathsIn_perm (prints : Prints w root pattern lines)
    (oneLine : ∀ path, IsMatch w root pattern path → path.OneLine) :
    (pathsIn (.concat (lines.map (· ++ [newline])))).Perm (lines.map Path.ofText) := by
  have plain : ∀ line ∈ lines, ∀ c ∈ line, c.endsLine = false := fun line member =>
    Path.oneLine_ofText_iff.mp (oneLine _ ((prints.mem_iff _).mp (List.mem_map_of_mem member)))
  have written : lines.filter (fun line => !line.isEmpty) = lines :=
    List.filter_eq_self.mpr fun line member => by simp [prints.ne_nil member]
  rw [pathsIn, Text.lines_printed plain, written]
  exact List.mergeSort_perm _ _

/-- A walk through directories gives the paths of the files that match. -/
theorem Walked.mem_iff_isMatch {files : List Path} (walked : Walked w root pattern files)
    (sound : w.tree.Sound) (free : w.tree.LinkFree) (clean : root.Clean) :
    path ∈ files ↔ IsMatch w root pattern path := by
  rw [walked.mem_iff]
  constructor
  · intro found
    obtain ⟨names, name, rfl, valid, fits, leads⟩ := found
    obtain ⟨-, place, data, mode, finds⟩ := leadsToFile_iff.mp leads
    obtain ⟨-, entry⟩ := Found.mk.inj (find_below free clean valid finds)
    exact ⟨names, name, data, mode, rfl, by rw [List.append_assoc, ← entry], fits⟩
  · intro isMatch
    obtain ⟨names, name, data, mode, rfl, file, fits⟩ := isMatch
    have valid : ∀ part ∈ names ++ [name], IsEntryName part :=
      sound.below (by rw [← List.append_assoc, file]; rfl)
    obtain ⟨found, finds⟩ := walked.asks names name (by rw [file]; rfl) (by rw [file]; simp) fits
    refine ⟨names, name, rfl, valid, fits, leadsToFile_iff.mpr
      ⟨Path.isPath_below walked.walkable.written valid, w.placeOf root ++ (names ++ [name]), data,
        mode, ?_⟩⟩
    rw [finds, find_below free clean valid finds, ← List.append_assoc, file]

/-- Without line ends in the names, a walk through directories and a program that prints what it
should give the same. -/
theorem Prints.pathsIn_eq (prints : Prints w root pattern lines) (sound : w.tree.Sound)
    (free : w.tree.LinkFree) (clean : root.Clean)
    (oneLine : ∀ path, IsMatch w root pattern path → path.OneLine) {files : List Path}
    (walked : Walked w root pattern files) :
    pathsIn (.concat (lines.map (· ++ [newline]))) = files := by
  have members : ∀ path, path ∈ lines.map Path.ofText ↔ path ∈ files := fun path => by
    rw [prints.mem_iff, walked.mem_iff_isMatch sound free clean]
  have perm : (pathsIn (.concat (lines.map (· ++ [newline])))).Perm files :=
    (prints.pathsIn_perm oneLine).trans
      ((List.perm_ext_iff_of_nodup prints.once walked.nodup).mpr members)
  exact walked.eq_of_perm (List.pairwise_mergeSort Path.le_trans Path.le_total _) perm

/-- What a program prints is read as it is, if the paths are made of characters and no line end is
within them. -/
theorem Prints.spelled (prints : Prints w root pattern lines)
    (scalar : ∀ path, IsMatch w root pattern path → path.Scalar) :
    Utf8.Spelled (printed lines) (.concat (lines.map (· ++ [newline]))) := by
  have characters : ∀ c ∈ Text.concat (lines.map (· ++ [newline])), c.isSurrogate = false := by
    intro c member
    obtain ⟨_, among, inside⟩ := List.mem_flatten.mp member
    obtain ⟨line, listed, rfl⟩ := List.mem_map.mp among
    rcases List.mem_append.mp inside with within | last
    · exact Path.scalar_ofText_iff.mp
        (scalar _ ((prints.mem_iff _).mp (List.mem_map_of_mem listed))) c within
    · obtain rfl := List.mem_singleton.mp last
      rfl
  exact ⟨characters, by rw [printed_eq, Utf8.nameBytes_of_scalar characters]⟩

theorem Prints.unifyNewlines_eq (prints : Prints w root pattern lines)
    (oneLine : ∀ path, IsMatch w root pattern path → path.OneLine) :
    (Text.concat (lines.map (· ++ [newline]))).unifyNewlines =
      .concat (lines.map (· ++ [newline])) := by
  apply Text.unifyNewlines_eq_self
  intro member
  obtain ⟨_, among, inside⟩ := List.mem_flatten.mp member
  obtain ⟨line, listed, rfl⟩ := List.mem_map.mp among
  rcases List.mem_append.mp inside with within | last
  · have plain := Path.oneLine_ofText_iff.mp
      (oneLine _ ((prints.mem_iff _).mp (List.mem_map_of_mem listed))) _ within
    cases plain
  · cases List.mem_singleton.mp last

/-- Both walkers give the same paths in the same order, if and only if nothing stops the walk
through the directories, what the program tells besides can be read, and the path of each file that
matches is made of characters, none of which ends a line. -/
theorem walks_agree_iff (sound : w.tree.Sound) (free : w.tree.LinkFree)
    (faultless : w.faults = Faults.none) {root : Text}
    (prints : Prints w (.ofText root) pattern lines) {errors : Printed}
    (finishes : w.programs.head? = some (.finished 0 (.bytes (printed lines)) errors))
    (command : List Text) (timeout : Option Int) (followLinks : Bool) :
    (∃ files, (∃ v, ((find command timeout).walk (.ofText root) pattern).run w = .ok files v) ∧
      ∃ u, ((native followLinks).walk (.ofText root) pattern).run w = .ok files u) ↔
    Smooth w (.ofText root) pattern ∧ errors.read.isOk = true ∧
      ∀ path, IsMatch w (.ofText root) pattern path → path.OneLine ∧ path.Scalar := by
  have clean := Path.clean_ofText root
  have lists := walkNative_ensures sound free clean followLinks pattern
  simp only [walk_find_eq_ok_iff finishes command timeout]
  constructor
  · rintro ⟨_, ⟨told, t, spelled, rfl⟩, u, returns⟩
    obtain ⟨-, walked⟩ := lists.of_ok returns
    refine ⟨walked.smooth faultless, told, fun path isMatch => ?_⟩
    have member := (walked.mem_iff_isMatch sound free clean).mpr isMatch
    refine ⟨oneLine_of_mem_pathsIn member, scalar_of_mem_pathsIn (fun c inside => ?_) member⟩
    rcases Text.mem_of_mem_unifyNewlines inside with before | rfl
    · exact spelled.scalar c before
    · rfl
  · rintro ⟨smooth, told, plain⟩
    have oneLine := fun path isMatch => (plain path isMatch).1
    cases ends : ((native followLinks).walk (.ofText root) pattern).run w with
    | error failure u => exact absurd smooth (lists.of_error ends).2
    | ok files u =>
      obtain ⟨-, walked⟩ := lists.of_ok ends
      have spelled := prints.spelled fun path isMatch => (plain path isMatch).2
      refine ⟨files, ⟨told, _, spelled, ?_⟩, u, rfl⟩
      rw [prints.unifyNewlines_eq oneLine, prints.pathsIn_eq sound free clean oneLine walked]

/-- The path of an entry of the current directory, as a program prints it. -/
def besideDot (name : EntryName) : Text :=
  (Path.ofText ".").directoryText [name]

/-- A directory with one file, and a program that prints the path of the file. -/
def printedAlone (name : EntryName) : World where
  tree := ⟨[([name], .file [120] 0o644)]⟩
  programs := [.finished 0 (.bytes (printed [besideDot name])) (.bytes [])]

theorem printedAlone_get? {name : EntryName} {l : Location} {e : Entry}
    (present : (printedAlone name).tree.get? l = some e) :
    l = [] ∨ l = [name] ∧ e = .file [120] 0o644 := by
  by_cases inner : l = []
  · exact .inl inner
  · have member := List.mem_singleton.mp (mem_entries_of_get? inner present)
    exact .inr (Prod.mk.inj member)

theorem sound_printedAlone {name : EntryName} (valid : IsEntryName name) :
    (printedAlone name).tree.Sound ∧ (printedAlone name).tree.LinkFree := by
  refine ⟨⟨closed_of_entries (by simp [printedAlone]), List.nodup_singleton _, ?_⟩, ?_⟩
  · intro l present part member
    obtain ⟨e, entry⟩ := Option.isSome_iff_exists.mp present
    rcases printedAlone_get? entry with rfl | ⟨rfl, -⟩
    · cases member
    · rwa [List.mem_singleton.mp member]
  · intro l target link
    rcases printedAlone_get? link with rfl | ⟨-, same⟩
    · cases link
    · cases same

theorem prints_printedAlone {name : EntryName} (valid : IsEntryName name)
    (fits : globMatches pattern (Utf8.decode name) = true) :
    Prints (printedAlone name) (.ofText ".") pattern [besideDot name] := by
  have read : Path.ofText (besideDot name) = Path.below (.ofText ".") [name] :=
    Path.ofText_directoryText (Path.clean_ofText ".") (by simpa using valid)
  have start : (printedAlone name).placeOf (.ofText ".") = [] := rfl
  refine ⟨List.nodup_singleton _, fun path => ?_⟩
  rw [List.map_singleton, List.mem_singleton, read]
  constructor
  · rintro rfl
    refine ⟨[], name, [120], 0o644, rfl, ?_, fits⟩
    rw [start]
    simp [printedAlone, get?_of_ne]
  · rintro ⟨names, last, data, mode, rfl, file, -⟩
    rw [start, List.nil_append] at file
    rcases printedAlone_get? file with none | ⟨same, -⟩
    · simp at none
    · rw [same]

/-- The name `a.tcl`. -/
def script : EntryName := [97, 46, 116, 99, 108]

/-- Both walkers find `a.tcl` in a directory that holds nothing else. -/
theorem walks_agree_script :
    Prints (printedAlone script) (.ofText ".") "*.tcl" [besideDot script] ∧ ∃ files v u,
    ((find ["find"] none).walk (.ofText ".") "*.tcl").run (printedAlone script) = .ok files v ∧
    ((native true).walk (.ofText ".") "*.tcl").run (printedAlone script) = .ok files u := by
  have valid : IsEntryName script := ⟨by decide, by decide, by decide, by decide, by decide⟩
  have prints : Prints (printedAlone script) (.ofText ".") "*.tcl" [besideDot script] :=
    prints_printedAlone valid (by decide +kernel)
  have oneLine : (Path.ofText (besideDot script)).OneLine :=
    Path.oneLine_ofText_iff.mpr (by decide +kernel)
  have scalar : (Path.ofText (besideDot script)).Scalar :=
    Path.scalar_ofText_iff.mpr (by decide +kernel)
  have returns : (((native true).walk (.ofText ".") "*.tcl").run (printedAlone script)
      matches .ok ..) = true := by
    decide +kernel
  obtain ⟨sound, free⟩ := sound_printedAlone valid
  have faultless : (printedAlone script).faults = Faults.none := rfl
  have finishes : (printedAlone script).programs.head? =
    some (.finished 0 (.bytes (printed [besideDot script])) (.bytes [])) := rfl
  refine ⟨prints, ?_⟩
  generalize printedAlone script = w at *
  cases lists : ((native true).walk (.ofText ".") "*.tcl").run w with
  | error failure u =>
    rw [lists] at returns
    cases returns
  | ok found u =>
    obtain ⟨-, walked⟩ :=
      (walkNative_ensures sound free (Path.clean_ofText ".") true "*.tcl").of_ok lists
    obtain ⟨files, ⟨v, finds⟩, u, same⟩ :=
      (walks_agree_iff sound free faultless prints finishes ["find"] none true).mpr
        ⟨walked.smooth faultless, rfl, fun path isMatch => by
          rw [List.mem_singleton.mp ((prints.mem_iff path).mpr isMatch)]
          exact ⟨oneLine, scalar⟩⟩
    exact ⟨files, v, u, finds, lists.symm.trans same⟩

/-- The name of a script with a line separator, U+2028, after its first letter. -/
def splitScript : EntryName := [97, 226, 128, 168, 98, 46, 116, 99, 108]

/-- A line separator in the name of a file, which is no newline, keeps the walkers from agreeing:
the path that a program prints is read as two. -/
theorem separator_splits_path : newline ∉ Utf8.decode splitScript ∧
    (printedAlone splitScript).tree.Sound ∧ (printedAlone splitScript).tree.LinkFree ∧
    Prints (printedAlone splitScript) (.ofText ".") "*.tcl" [besideDot splitScript] ∧
    (printedAlone splitScript).programs.head? =
      some (.finished 0 (.bytes (printed [besideDot splitScript])) (.bytes [])) ∧
    ∃ files v u, ((native true).walk (.ofText ".") "*.tcl").run (printedAlone splitScript) =
        .ok [.ofText "a\u2028b.tcl"] u ∧
      ((find ["find"] none).walk (.ofText ".") "*.tcl").run (printedAlone splitScript) =
        .ok files v ∧ Path.ofText "a\u2028b.tcl" ∉ files := by
  have valid : IsEntryName splitScript := ⟨by decide, by decide, by decide, by decide, by decide⟩
  have lists : (((native true).walk (.ofText ".") "*.tcl").returned?
      (printedAlone splitScript)).map Prod.fst = some [.ofText "a\u2028b.tcl"] := by
    decide +kernel
  have broken : ¬(Path.ofText "a\u2028b.tcl").OneLine :=
    fun oneLine => absurd (Path.oneLine_ofText_iff.mp oneLine) (by decide +kernel)
  have plain : newline ∉ Utf8.decode splitScript := by decide +kernel
  have prints : Prints (printedAlone splitScript) (.ofText ".") "*.tcl" [besideDot splitScript] :=
    prints_printedAlone valid (by decide +kernel)
  obtain ⟨sound, free⟩ := sound_printedAlone valid
  have finishes : (printedAlone splitScript).programs.head? =
    some (.finished 0 (.bytes (printed [besideDot splitScript])) (.bytes [])) := rfl
  have characters : ∀ c ∈ Text.concat ([besideDot splitScript].map (· ++ [newline])),
      c.isSurrogate = false := by
    decide +kernel
  have spelled : Utf8.Spelled (printed [besideDot splitScript]) _ :=
    ⟨characters, by rw [printed_eq, Utf8.nameBytes_of_scalar characters]⟩
  refine ⟨plain, sound, free, prints, finishes, ?_⟩
  generalize printedAlone splitScript = w at finishes lists ⊢
  obtain ⟨v, finds⟩ := (walk_find_eq_ok_iff finishes ["find"] none (.ofText ".") "*.tcl").mpr
    ⟨rfl, _, spelled, rfl⟩
  obtain ⟨p, returned, one⟩ := Option.map_eq_some_iff.mp lists
  have returns := Action.run_of_returned? returned
  rw [one] at returns
  exact ⟨_, v, p.2, returns, finds, fun member => broken (oneLine_of_mem_pathsIn member)⟩

end Walker

end Renewal
