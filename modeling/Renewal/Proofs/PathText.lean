import Renewal.FileSystem.Resolve
import Renewal.Proofs.Utf8
import Renewal.Walker

/-! # Paths and their texts

A path is written and read back (`Path.ofText_text`), and going from a directory to an entry adds
one name to it, however the directory was written (`Path.ofText_join`). The names that the
operating system finds in a text are the names of the path, as bytes, dots apart.
-/

namespace Renewal

namespace Text

variable {separator : CodePoint} {s t part : Text}

theorem cutAt_eq_splitOn (separator : CodePoint) (t : Text) :
    t.cutAt separator = t.splitOn separator := by
  induction t with
  | nil => rfl
  | cons c rest ih =>
    rw [cutAt, List.splitOn, List.splitOnP_cons_eq_if_modifyHead, ← List.splitOn, ih]
    simp only [beq_iff_eq]
    split
    · rfl
    · cases cut : List.splitOn separator rest with
      | nil => exact absurd cut (List.splitOn_ne_nil _ _)
      | cons first others => rfl

theorem cutAt_ne_nil (t : Text) : t.cutAt separator ≠ [] := by
  rw [cutAt_eq_splitOn]
  exact List.splitOn_ne_nil _ _

theorem cutAt_append (s t : Text) :
    (s ++ separator :: t).cutAt separator = s.cutAt separator ++ t.cutAt separator := by
  simp only [cutAt_eq_splitOn]
  exact List.splitOnP_append_cons s t (by simp)

theorem cutAt_of_not_mem (uncut : separator ∉ t) : t.cutAt separator = [t] := by
  rw [cutAt_eq_splitOn, List.splitOn_eq_singleton uncut]

/-- The first separator of a text tells what stands before it. -/
theorem eq_of_append_separator {s' t' : Text} (uncut : separator ∉ s) (uncut' : separator ∉ s')
    (same : s ++ separator :: t = s' ++ separator :: t') : s = s' ∧ t = t' := by
  have cut := congrArg (cutAt separator) same
  rw [cutAt_append, cutAt_append, cutAt_of_not_mem uncut, cutAt_of_not_mem uncut'] at cut
  obtain ⟨rfl, -⟩ := List.cons.inj cut
  exact ⟨rfl, by simpa using same⟩

theorem not_mem_of_mem_cutAt (member : part ∈ t.cutAt separator) : separator ∉ part := by
  induction t generalizing part with
  | nil =>
    obtain rfl := List.mem_singleton.mp member
    simp
  | cons c rest ih =>
    rw [cutAt] at member
    split at member
    · rcases List.mem_cons.mp member with rfl | member
      · simp
      · exact ih member
    · rename_i other
      split at member
      · rename_i none
        exact absurd none (cutAt_ne_nil rest)
      · rename_i first others cut
        rcases List.mem_cons.mp member with rfl | member
        · have clear : separator ∉ first := ih (by rw [cut]; exact List.mem_cons_self)
          simp [clear, Ne.symm other]
        · exact ih (by rw [cut]; exact List.mem_cons_of_mem _ member)

/-- What stands in a text stands in one of the parts that it is cut into, separators apart. -/
theorem mem_cutAt_iff {c : CodePoint} :
    (∃ part ∈ t.cutAt separator, c ∈ part) ↔ c ∈ t ∧ c ≠ separator := by
  induction t with
  | nil => simp [cutAt]
  | cons d rest ih =>
    rw [cutAt]
    split
    · rename_i same
      rw [List.exists_mem_cons_iff, ih, List.mem_cons, same]
      grind
    · rename_i other
      cases cut : cutAt separator rest with
      | nil => exact absurd cut (cutAt_ne_nil rest)
      | cons first others =>
        rw [cut, List.exists_mem_cons_iff] at ih
        rw [List.exists_mem_cons_iff, List.mem_cons, or_assoc, ih, List.mem_cons]
        grind

theorem joinWith_cons (separator part next : Text) (rest : List Text) :
    joinWith separator (part :: next :: rest) =
      part ++ (separator ++ joinWith separator (next :: rest)) := by
  simp [joinWith]

theorem mem_of_mem_joinWith {c : CodePoint} {separator : Text} {parts : List Text}
    (member : c ∈ joinWith separator parts) : c ∈ separator ∨ ∃ part ∈ parts, c ∈ part := by
  induction parts with
  | nil => cases member
  | cons part rest ih =>
    cases rest with
    | nil => exact .inr ⟨part, List.mem_cons_self, by simpa [joinWith] using member⟩
    | cons next rest =>
      rw [joinWith_cons, List.mem_append, List.mem_append] at member
      rcases member with here | between | later
      · exact .inr ⟨part, List.mem_cons_self, here⟩
      · exact .inl between
      · rcases ih later with between | ⟨part', among, inside⟩
        · exact .inl between
        · exact .inr ⟨part', List.mem_cons_of_mem _ among, inside⟩

theorem joinWith_cutAt (separator : CodePoint) (t : Text) :
    joinWith [separator] (t.cutAt separator) = t := by
  rw [cutAt_eq_splitOn]
  exact List.intercalate_splitOn separator

theorem cutAt_joinWith {parts : List Text} (some : parts ≠ [])
    (uncut : ∀ part ∈ parts, separator ∉ part) :
    (joinWith [separator] parts).cutAt separator = parts := by
  rw [cutAt_eq_splitOn]
  exact List.splitOn_intercalate separator uncut some

end Text

namespace Tree

open Encoding

theorem cutAtSlash_eq_splitOn (bytes : Bytes) : cutAtSlash bytes = bytes.splitOn slash := by
  induction bytes with
  | nil => rfl
  | cons b rest ih =>
    rw [cutAtSlash, List.splitOn, List.splitOnP_cons_eq_if_modifyHead, ← List.splitOn, ih]
    simp only [beq_iff_eq]
    split
    · rfl
    · cases cut : List.splitOn slash rest with
      | nil => exact absurd cut (List.splitOn_ne_nil _ _)
      | cons first others => rfl

theorem slash_mem_codeBytes_iff {c : CodePoint} : slash ∈ codeBytes c ↔ c = Path.separator := by
  refine ⟨fun member => ?_, fun same => by rw [same]; decide⟩
  obtain ⟨code, -⟩ := codeBytes_of_mem (by decide) member
  cases c
  exact (CodePoint.mk.injEq ..).mpr code

theorem slash_not_mem_nameBytes {t : Text} (uncut : Path.separator ∉ t) :
    slash ∉ nameBytes t := by
  intro member
  obtain ⟨c, inside, among⟩ := List.mem_flatMap.mp member
  exact uncut (slash_mem_codeBytes_iff.mp among ▸ inside)

theorem head?_nameBytes_iff {t : Text} :
    (nameBytes t).head? = some slash ↔ t.head? = some Path.separator := by
  cases t with
  | nil => simp [nameBytes]
  | cons c rest =>
    rw [nameBytes_cons, List.head?_append_of_ne_nil _ (codeBytes_ne_nil c), List.head?_cons,
      Option.some.injEq]
    refine ⟨fun first => slash_mem_codeBytes_iff.mp (List.mem_of_head? first), fun same => ?_⟩
    rw [same]
    decide

theorem getLast?_nameBytes_iff {t : Text} :
    (nameBytes t).getLast? = some slash ↔ t.getLast? = some Path.separator := by
  rcases List.eq_nil_or_concat t with rfl | ⟨front, c, rfl⟩
  · simp [nameBytes]
  · have single : nameBytes [c] = codeBytes c := by simp [nameBytes, codeBytes]
    rw [List.concat_eq_append, nameBytes_append, single,
      List.getLast?_append_of_ne_nil _ (codeBytes_ne_nil c), List.getLast?_concat,
      Option.some.injEq]
    refine ⟨fun last => slash_mem_codeBytes_iff.mp (List.mem_of_getLast? last), fun same => ?_⟩
    rw [same]
    decide

theorem nameBytes_joinWith (parts : List Text) :
    nameBytes (Text.joinWith [Path.separator] parts) =
      [slash].intercalate (parts.map nameBytes) := by
  induction parts with
  | nil => rfl
  | cons part rest ih =>
    cases rest with
    | nil => simp [Text.joinWith, List.intercalate]
    | cons next rest =>
      simp only [Text.joinWith, List.intercalate, List.map_cons, List.intersperse_cons_cons,
        List.flatten_cons] at ih ⊢
      rw [nameBytes_append, nameBytes_append, ih]
      rfl

/-- Bytes are cut at slashes where their text is. -/
theorem cutAtSlash_nameBytes (t : Text) :
    cutAtSlash (nameBytes t) = (t.cutAt Path.separator).map nameBytes := by
  conv_lhs => rw [← Text.joinWith_cutAt Path.separator t]
  rw [nameBytes_joinWith, cutAtSlash_eq_splitOn]
  refine List.splitOn_intercalate slash ?_ ?_
  · intro bytes member
    obtain ⟨part, inside, rfl⟩ := List.mem_map.mp member
    exact slash_not_mem_nameBytes (Text.not_mem_of_mem_cutAt inside)
  · rw [Text.cutAt_eq_splitOn]
    simp [List.splitOn_ne_nil]

theorem nameBytes_eq_nil_iff {t : Text} : nameBytes t = [] ↔ t = [] := by
  cases t with
  | nil => simp [nameBytes]
  | cons c rest => simp [nameBytes_cons, codeBytes_ne_nil]

theorem nameBytes_eq_dot_iff {t : Text} : nameBytes t = dot ↔ t = ("." : Text) := by
  refine ⟨fun same => ?_, fun same => by rw [same]; decide⟩
  cases t with
  | nil => cases same
  | cons c rest =>
    cases bytes : codeBytes c with
    | nil => exact absurd bytes (codeBytes_ne_nil c)
    | cons x more =>
      rw [nameBytes_cons, bytes, List.cons_append, dot, List.cons.injEq, List.append_eq_nil_iff,
        nameBytes_eq_nil_iff] at same
      obtain ⟨rfl, -, rfl⟩ := same
      obtain ⟨code, -⟩ := codeBytes_of_mem (c := c) (x := 0x2E) (by decide) (by simp [bytes])
      cases c
      exact congrArg (fun c => [c]) ((CodePoint.mk.injEq ..).mpr code)

end Tree

namespace Path

variable {p : Path} {d name s t : Text}

/-- A text that is one name on a path. -/
structure IsPart (t : Text) : Prop where
  written : t ≠ []
  notDot : t ≠ ("." : Text)
  uncut : separator ∉ t

theorem IsPart.append (part : IsPart s) (uncut : separator ∉ s ++ t) : IsPart (s ++ t) := by
  refine ⟨by simp [part.written], ?_, uncut⟩
  intro dot
  cases s with
  | nil => exact part.written rfl
  | cons c rest =>
    obtain ⟨rfl, none⟩ := List.cons.inj dot
    obtain ⟨rfl, -⟩ := List.append_eq_nil_iff.mp none
    exact part.notDot rfl

/-- Every name of a path is one. -/
def Clean (p : Path) : Prop :=
  ∀ name ∈ p.names, IsPart name

theorem clean_ofText (t : Text) : (ofText t).Clean := by
  intro name member
  obtain ⟨part, kept⟩ := List.mem_filter.mp member
  simp only [Bool.and_eq_true, Bool.not_eq_true', List.isEmpty_eq_false_iff, bne_iff_ne] at kept
  exact ⟨kept.1, kept.2, Text.not_mem_of_mem_cutAt part⟩

theorem namesOf_append (s t : Text) : namesOf (s ++ separator :: t) = namesOf s ++ namesOf t := by
  rw [namesOf, Text.cutAt_append, List.filter_append]
  rfl

theorem namesOf_of_isPart (part : IsPart t) : namesOf t = [t] := by
  rw [namesOf, Text.cutAt_of_not_mem part.uncut]
  simp [part.written, part.notDot]

theorem namesOf_joinWith {names : List Text} (parts : ∀ name ∈ names, IsPart name) :
    namesOf (Text.joinWith [separator] names) = names := by
  cases names with
  | nil => decide
  | cons name rest =>
    rw [namesOf, Text.cutAt_joinWith (by simp) fun part member => (parts part member).uncut,
      List.filter_eq_self]
    intro part member
    simp [(parts part member).written, (parts part member).notDot]

theorem head?_ne_of_isPart (part : IsPart t) : t.head? ≠ some separator := by
  intro first
  exact part.uncut (List.mem_of_head? first)

theorem getLast?_ne_of_isPart (part : IsPart t) : t.getLast? ≠ some separator := by
  intro last
  exact part.uncut (List.mem_of_getLast? last)

theorem takeWhile_eq_nil (first : t.head? ≠ some separator) :
    t.takeWhile (· == separator) = [] := by
  cases t with
  | nil => rfl
  | cons c rest =>
    have other : c ≠ separator := by simpa using first
    simp [other]

theorem rootOf_eq_relative_iff : rootOf t = .relative ↔ t.head? ≠ some separator := by
  constructor
  · intro relative first
    cases t with
    | nil => cases first
    | cons c rest =>
      obtain rfl : c = separator := by simpa using first
      rw [rootOf, List.takeWhile_cons_of_pos (by simp)] at relative
      split at relative
      · rename_i none
        cases none
      · cases relative
      · cases relative
  · intro first
    rw [rootOf, takeWhile_eq_nil first]
    rfl

theorem rootOf_text_append (root : PathRoot) (first : t.head? ≠ some separator) :
    rootOf (root.text ++ t) = root := by
  have slashes : ∀ c ∈ root.text, (c == separator) = true := by
    cases root <;> decide
  rw [rootOf, List.takeWhile_append_of_pos slashes, takeWhile_eq_nil first, List.append_nil]
  cases root <;> rfl

theorem head?_joinWith {names : List Text} (parts : ∀ name ∈ names, IsPart name) :
    (Text.joinWith [separator] names).head? ≠ some separator := by
  cases names with
  | nil => simp [Text.joinWith]
  | cons name rest =>
    have part := parts name List.mem_cons_self
    have same : (Text.joinWith [separator] (name :: rest)).head? = name.head? := by
      cases rest <;> simp [Text.joinWith, List.head?_append, List.head?_eq_some_head part.written]
    rw [same]
    exact head?_ne_of_isPart part

/-- A path is read back from its text. -/
theorem ofText_text (clean : p.Clean) : ofText p.text = p := by
  obtain ⟨root, names⟩ := p
  have read : ofText (root.text ++ Text.joinWith [separator] names) = ⟨root, names⟩ := by
    refine Path.mk.injEq .. |>.mpr ⟨rootOf_text_append root (head?_joinWith clean), ?_⟩
    have after := namesOf_joinWith clean
    cases root with
    | relative => exact after
    | slash => exact (namesOf_append [] _).trans after
    | doubleSlash => exact (namesOf_append [separator] _).trans after
  cases root with
  | relative =>
    cases names with
    | nil => decide
    | cons name rest => exact read
  | slash | doubleSlash => exact read

theorem rootOf_append (s t : Text)
    (stops : t.head? ≠ some separator ∨ ∃ c ∈ s, c ≠ separator) : rootOf (s ++ t) = rootOf s := by
  have same : (s ++ t).takeWhile (· == separator) = s.takeWhile (· == separator) := by
    induction s with
    | nil => exact takeWhile_eq_nil (stops.resolve_right (by simp))
    | cons c rest ih =>
      by_cases slash : c = separator
      · subst slash
        simp only [List.cons_append, List.takeWhile_cons, beq_self_eq_true, ↓reduceIte]
        rw [ih (stops.imp_right fun ⟨c, member, other⟩ =>
          ⟨c, (List.mem_cons.mp member).resolve_left other, other⟩)]
      · simp [slash]
  rw [rootOf, same]
  rfl

/-- Going to an entry of a directory adds its name to the path. -/
theorem ofText_join (written : d ≠ []) (part : IsPart name) :
    ofText (Walker.join d name) = ⟨(ofText d).root, (ofText d).names ++ [name]⟩ := by
  obtain ⟨front, last, rfl⟩ : ∃ front last, d = front ++ [last] := by
    simpa using (List.eq_nil_or_concat d).resolve_left written
  unfold Walker.join
  by_cases ending : last = separator
  · subst ending
    rw [if_pos (by simp)]
    refine Path.mk.injEq .. |>.mpr ⟨rootOf_append _ _ (.inl (head?_ne_of_isPart part)), ?_⟩
    change _ = namesOf (front ++ separator :: []) ++ [name]
    rw [List.append_assoc, List.singleton_append, namesOf_append, namesOf_append,
      namesOf_of_isPart part]
    simp [show namesOf [] = [] by decide]
  · rw [if_neg (by simpa using ending)]
    change ofText ((front ++ [last]) ++ (separator :: (name ++ []))) = _
    rw [List.append_nil]
    refine Path.mk.injEq .. |>.mpr ⟨rootOf_append _ _ (.inr ⟨last, by simp, ending⟩), ?_⟩
    rw [namesOf_append, namesOf_of_isPart part]
    rfl

theorem pathStart_nameBytes (directory : Location) (t : Text) :
    Tree.pathStart directory (Encoding.nameBytes t) =
      if rootOf t = .relative then directory else [] := by
  simp only [Tree.pathStart, Tree.head?_nameBytes_iff, rootOf_eq_relative_iff]
  by_cases first : t.head? = some separator <;> simp [first]

/-- The names that are found in a text: a slash at its end counts as a dot. -/
theorem pathNames_nameBytes (t : Text) :
    Tree.pathNames (Encoding.nameBytes t) =
      ((t.cutAt separator).filter fun name => !name.isEmpty).map Encoding.nameBytes ++
        if t.getLast? = some separator then [Tree.dot] else [] := by
  have kept : (Tree.cutAtSlash (Encoding.nameBytes t)).filter (fun name => !name.isEmpty) =
      ((t.cutAt separator).filter fun name => !name.isEmpty).map Encoding.nameBytes := by
    rw [Tree.cutAtSlash_nameBytes, List.filter_map]
    congr 2
    funext name
    rw [Function.comp_apply, Bool.eq_iff_iff]
    simp [Tree.nameBytes_eq_nil_iff]
  simp only [Tree.pathNames, kept, Tree.getLast?_nameBytes_iff]
  split <;> simp

theorem text_eq (named : p.names ≠ []) :
    p.text = p.root.text ++ Text.joinWith [separator] p.names := by
  obtain ⟨root, names⟩ := p
  cases names with
  | nil => exact absurd rfl named
  | cons name rest => cases root <;> rfl

/-- The names of a path are found in its text. -/
theorem pathNames_text (clean : p.Clean) (named : p.names ≠ []) :
    Tree.pathNames (Encoding.nameBytes p.text) = p.names.map Encoding.nameBytes := by
  obtain ⟨empties, cut, empty⟩ : ∃ empties, p.text.cutAt separator = empties ++ p.names ∧
      ∀ part ∈ empties, part = [] := by
    have names : (Text.joinWith [separator] p.names).cutAt separator = p.names :=
      Text.cutAt_joinWith named fun part member => (clean part member).uncut
    rw [text_eq named]
    cases p.root with
    | relative => exact ⟨[], names, by simp⟩
    | slash =>
      exact ⟨[[]], (Text.cutAt_append [] _).trans (congrArg ([[]] ++ ·) names), by simp⟩
    | doubleSlash =>
      exact ⟨[[], []], (Text.cutAt_append [separator] _).trans (congrArg ([[], []] ++ ·) names),
        by simp⟩
  have ending : p.text.getLast? ≠ some separator := by
    intro ends
    obtain ⟨front, last, same⟩ := (List.eq_nil_or_concat p.text).resolve_left (by
      intro none
      rw [none] at ends
      cases ends)
    rw [List.concat_eq_append] at same
    obtain rfl : last = separator := by simpa [same] using ends
    rw [same, Text.cutAt_append] at cut
    obtain ⟨others, name, names⟩ := (List.eq_nil_or_concat p.names).resolve_left named
    rw [List.concat_eq_append] at names
    rw [names, ← List.append_assoc] at cut
    obtain ⟨-, sameName⟩ := List.append_inj' cut rfl
    refine (clean name (by simp [names])).written ?_
    simpa [Text.cutAt] using sameName.symm
  rw [pathNames_nameBytes, if_neg ending, cut, List.filter_append, List.append_nil,
    List.filter_eq_nil_iff.mpr (by simpa using empty), List.nil_append, List.filter_eq_self.mpr]
  intro part member
  simp [(clean part member).written]

/-- What stands after the last slash of a text. -/
def ending (t : Text) : Text :=
  (t.cutAt separator).getLast?.getD []

theorem ending_of_uncut (uncut : separator ∉ t) : ending t = t := by
  rw [ending, Text.cutAt_of_not_mem uncut]
  rfl

theorem ending_separator (s t : Text) : ending (s ++ separator :: t) = ending t := by
  rw [ending, Text.cutAt_append, List.getLast?_append_of_ne_nil _ (Text.cutAt_ne_nil t)]
  rfl

theorem ending_cons (c : CodePoint) (t : Text) :
    ending (c :: t) = if separator ∈ c :: t then ending t else c :: t := by
  split
  · rename_i cut
    by_cases later : separator ∈ t
    · obtain ⟨front, rest, rfl⟩ := List.append_of_mem later
      rw [← List.cons_append, ending_separator, ending_separator]
    · obtain rfl : separator = c := (List.mem_cons.mp cut).resolve_right later
      exact ending_separator [] t
  · exact ending_of_uncut ‹_›

theorem cutAt_append_uncut (s : Text) (uncut : separator ∉ t) :
    (s ++ t).cutAt separator = (s.cutAt separator).dropLast ++ [ending s ++ t] := by
  induction s with
  | nil => exact Text.cutAt_of_not_mem uncut
  | cons c rest ih =>
    obtain ⟨parts, last, cut⟩ :=
      (List.eq_nil_or_concat (Text.cutAt separator rest)).resolve_left (Text.cutAt_ne_nil rest)
    rw [List.concat_eq_append] at cut
    have ends : ending rest = last := by
      rw [ending, cut, List.getLast?_concat]
      rfl
    rw [cut, List.dropLast_concat, ends] at ih
    have whole : ∀ front : List Text, (front ++ [last]).dropLast ++
        [(front ++ [last]).getLast?.getD [] ++ t] = front ++ [last ++ t] := by
      intro front
      rw [List.dropLast_concat, List.getLast?_concat]
      rfl
    rw [List.cons_append, Text.cutAt, ih, ending, Text.cutAt, cut]
    split
    · exact (whole ([] :: parts)).symm
    · cases parts with
      | nil => rfl
      | cons first others => exact (whole ((c :: first) :: others)).symm

theorem ending_append_uncut (s : Text) (uncut : separator ∉ t) :
    ending (s ++ t) = ending s ++ t := by
  rw [ending, cutAt_append_uncut s uncut, List.getLast?_concat]
  rfl

theorem ending_suffix (s t : Text) : ending t <:+ ending (s ++ t) := by
  induction s with
  | nil => exact List.suffix_rfl
  | cons c rest ih =>
    rw [List.cons_append, ending_cons]
    split
    · exact ih
    · rename_i uncut
      rw [ending_of_uncut fun inside => uncut (by simp [inside])]
      exact List.suffix_append (c :: rest) t

theorem ending_suffix_self (t : Text) : ending t <:+ t := by
  induction t with
  | nil => exact List.suffix_rfl
  | cons c rest ih =>
    rw [ending_cons]
    split
    · exact ih.trans (List.suffix_cons c rest)
    · exact List.suffix_rfl

theorem ending_joinWith (front : List Text) (last : Text) :
    ending (Text.joinWith [separator] (front ++ [last])) = ending last := by
  induction front with
  | nil => simp [Text.joinWith]
  | cons part rest ih =>
    obtain ⟨next, others, same⟩ : ∃ next others, rest ++ [last] = next :: others :=
      List.exists_cons_of_ne_nil (by simp)
    rw [List.cons_append, same]
    rw [same] at ih
    exact (ending_separator part _).trans ih

/-- The text of a path ends as its last name does. -/
theorem ending_text (named : p.names ≠ []) : ending p.text = ending p.name := by
  obtain ⟨front, last, names⟩ := (List.eq_nil_or_concat p.names).resolve_left named
  rw [List.concat_eq_append] at names
  have joined := ending_joinWith front last
  rw [text_eq named, name, names, List.getLast?_concat, Option.getD_some]
  cases p.root with
  | relative => exact joined
  | slash => exact (ending_separator [] _).trans joined
  | doubleSlash => exact (ending_separator [separator] _).trans joined

theorem ending_mem_cutAt (t : Text) : ending t ∈ t.cutAt separator := by
  obtain ⟨parts, last, same⟩ :=
    (List.eq_nil_or_concat (t.cutAt separator)).resolve_left (Text.cutAt_ne_nil t)
  rw [ending, same]
  simp

theorem getLast?_of_ending_eq_nil (written : t ≠ []) (none : ending t = []) :
    t.getLast? = some separator := by
  obtain ⟨front, last, rfl⟩ := (List.eq_nil_or_concat t).resolve_left written
  rw [List.concat_eq_append] at none ⊢
  by_cases slash : last = separator
  · simp [slash]
  · rw [ending_append_uncut front (by simpa using Ne.symm slash)] at none
    simp at none

/-- The last of the names that are found in a text is what it ends with, or a dot. -/
theorem exists_pathNames (written : t ≠ []) :
    ∃ names, Tree.pathNames (Encoding.nameBytes t) =
      names ++ [if ending t = [] then Tree.dot else Encoding.nameBytes (ending t)] := by
  obtain ⟨front, last, cut⟩ := (List.eq_nil_or_concat t).resolve_left written
  rw [List.concat_eq_append] at cut
  rw [pathNames_nameBytes]
  by_cases slash : last = separator
  · subst slash
    have none : ending t = [] := by
      rw [cut, ending_separator]
      rfl
    rw [if_pos (by simp [cut]), if_pos none]
    exact ⟨_, rfl⟩
  · have some : ending t ≠ [] := by
      rw [cut, ending_append_uncut front (by simpa using Ne.symm slash)]
      simp
    obtain ⟨parts, final, whole⟩ :=
      (List.eq_nil_or_concat (t.cutAt separator)).resolve_left (Text.cutAt_ne_nil t)
    rw [List.concat_eq_append] at whole
    have same : ending t = final := by
      rw [ending, whole, List.getLast?_concat]
      rfl
    rw [if_neg (by simpa [cut] using slash), if_neg some, whole, same, List.append_nil,
      List.filter_append, List.filter_cons_of_pos (by simpa [same] using some)]
    exact ⟨_, List.map_append⟩

/-- Texts with one beginning lead through the same names, except for the last. -/
theorem exists_pathNames_append (lead : Text) :
    ∃ names, ∀ back, back ≠ [] → separator ∉ back →
      Tree.pathNames (Encoding.nameBytes (lead ++ back)) =
        names ++ [Encoding.nameBytes (ending lead ++ back)] := by
  refine ⟨(((lead.cutAt separator).dropLast).filter fun name => !name.isEmpty).map
    Encoding.nameBytes, fun back written uncut => ?_⟩
  have last : (lead ++ back).getLast? ≠ some separator := by
    rw [List.getLast?_append_of_ne_nil _ written]
    exact fun slash => uncut (List.mem_of_getLast? slash)
  rw [pathNames_nameBytes, if_neg last, cutAt_append_uncut lead uncut, List.append_nil,
    List.filter_append, List.filter_cons_of_pos (by simp [written]), List.map_append]
  rfl
end Path

end Renewal
