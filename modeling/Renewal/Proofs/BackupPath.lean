import Renewal.Backup.Name
import Renewal.Proofs.Glob
import Renewal.Proofs.PlainPath

/-! # Where saved copies stand

The saved copy of a file stands beside it, and its name is the name of the file with the suffix, as
bytes and as text. Its path is made of the path of the file and leads back to it.
-/

namespace Renewal.Backup

open Renewal.Tree
open FileSystem (isPath)

variable {root : Path} {names : Location} {name : EntryName}

/-- The suffix of saved copies as bytes. -/
def suffixBytes : Bytes :=
  Encoding.nameBytes defaultSuffix

/-- Where the saved copy of a file stands. -/
def placeFor (place : Location) : Location :=
  place.dropLast ++ [place.getLast?.getD [] ++ suffixBytes]

@[simp]
theorem placeFor_concat (around : Location) (name : EntryName) :
    placeFor (around ++ [name]) = around ++ [name ++ suffixBytes] := by
  simp [placeFor]

theorem placeFor_ne {place : Location} (inner : place ≠ []) : placeFor place ≠ place := by
  obtain ⟨around, name, rfl⟩ := (List.eq_nil_or_concat' place).resolve_left inner
  rw [placeFor_concat]
  intro same
  obtain ⟨-, last⟩ := List.append_inj' same rfl
  have none : suffixBytes = [] := List.append_right_eq_self.mp (List.singleton_inj.mp last)
  exact absurd none (by decide)

theorem placeFor_injective {place other : Location} (inner : place ≠ []) (inner' : other ≠ [])
    (same : placeFor place = placeFor other) : place = other := by
  obtain ⟨around, name, rfl⟩ := (List.eq_nil_or_concat place).resolve_left inner
  obtain ⟨around', name', rfl⟩ := (List.eq_nil_or_concat other).resolve_left inner'
  rw [List.concat_eq_append, List.concat_eq_append, placeFor_concat, placeFor_concat] at same
  obtain ⟨rfl, sameName⟩ := List.append_inj' same rfl
  rw [List.append_cancel_right (List.singleton_inj.mp sameName)]

theorem name_concat (root : PathRoot) (front : List Text) (last : Text) :
    Path.name ⟨root, front ++ [last]⟩ = last := by
  simp [Path.name]

theorem pathFor_eq_ok {path backup : Path} {suffix : Text}
    (named : pathFor path suffix = .ok backup) :
    path.name ≠ [] ∧ Path.isName (path.name ++ suffix) = true ∧
      backup = ⟨path.root, path.names.dropLast ++ [path.name ++ suffix]⟩ := by
  unfold pathFor Path.withName at named
  split at named
  · cases named
  rename_i some
  split at named
  · cases named
    exact ⟨by simpa using some, ‹_›, rfl⟩
  · cases named

/-- The name of a location ends with the suffix. -/
def IsSavedPlace (place : Location) : Prop :=
  ∃ around name, place = around ++ [name ++ suffixBytes]

theorem isSavedPlace_placeFor (place : Location) : IsSavedPlace (placeFor place) :=
  ⟨_, _, rfl⟩

theorem decode_saved (name : EntryName) :
    Utf8.decode (name ++ suffixBytes) = Utf8.decode name ++ defaultSuffix :=
  Utf8.decode_append name (by decide)

/-- A name ends with the suffix as a text if it does so as bytes, and the other way round. -/
theorem suffix_decode_iff : defaultSuffix <:+ Utf8.decode name ↔ suffixBytes <:+ name := by
  constructor
  · rintro ⟨front, same⟩
    refine ⟨Encoding.nameBytes front, ?_⟩
    rw [suffixBytes, ← Encoding.nameBytes_append, same, Encoding.nameBytes_decode]
  · rintro ⟨front, rfl⟩
    rw [decode_saved]
    exact List.suffix_append _ _

theorem globMatches_suffix :
    globMatches (('*' : CodePoint) :: defaultSuffix) (Utf8.decode name) = true ↔
      suffixBytes <:+ name := by
  rw [globMatches_asterisk (by decide), suffix_decode_iff]

theorem endsWith_suffix :
    (Utf8.decode name).endsWith defaultSuffix = true ↔ suffixBytes <:+ name := by
  rw [Text.endsWith, List.isSuffixOf_iff_suffix, suffix_decode_iff]

theorem isEntryName_saved (valid : IsEntryName name) : IsEntryName (name ++ suffixBytes) := by
  have bytes : slash ∉ suffixBytes ∧ 0 ∉ suffixBytes := by decide
  have long : 9 ≤ (name ++ suffixBytes).length := by
    rw [List.length_append]
    exact Nat.le_add_left 9 _
  refine ⟨by simp [valid.written], ?_, ?_, ?_, ?_⟩
  · simp [valid.uncut, bytes.1]
  · simp [valid.notNull, bytes.2]
  · intro same
    rw [same] at long
    exact absurd long (by decide)
  · intro same
    rw [same] at long
    exact absurd long (by decide)

theorem valid_saved (valid : ∀ part ∈ names ++ [name], IsEntryName part) :
    ∀ part ∈ names ++ [name ++ suffixBytes], IsEntryName part := by
  intro part member
  rcases List.mem_append.mp member with member | member
  · exact valid part (List.mem_append_left _ member)
  · rw [List.mem_singleton.mp member]
    exact isEntryName_saved (valid name (by simp))

/-- The path of a saved copy is one if the path of the file is. -/
theorem written_saved (root : Path) (names : Location) (name : EntryName) :
    isPath (root.below (names ++ [name ++ suffixBytes])).text =
      isPath (root.below (names ++ [name])).text := by
  obtain ⟨lead, text⟩ := root.text_below_concat names
  have suffix : List.all defaultSuffix Encoding.isNameable = true := by decide
  rw [text, text, decode_saved, ← List.append_assoc, isPath, List.all_append, suffix,
    Bool.and_true]
  rfl

theorem isName_of_isPart {t : Text} (part : Path.IsPart t) : Path.isName t = true := by
  have relative := Path.rootOf_eq_relative_iff.mpr (Path.head?_ne_of_isPart part)
  have last := Path.getLast?_ne_of_isPart part
  simp [Path.isName, relative, last, Path.namesOf_of_isPart part]

theorem name_below (root : Path) (names : Location) (name : EntryName) :
    (root.below (names ++ [name])).name = Utf8.decode name := by
  simp [Path.name, Path.below]

theorem withName_below (root : Path) (names : Location) (valid : IsEntryName name)
    {other : EntryName} (part : Path.IsPart (Utf8.decode other)) :
    (root.below (names ++ [name])).withName (Utf8.decode other) =
      .ok (root.below (names ++ [other])) := by
  rw [Path.withName, name_below, if_neg (by simpa using valid.isPart.written),
    if_pos (isName_of_isPart part)]
  simp [Path.below]

/-- The path of the saved copy of a file below a directory. -/
theorem pathFor_below (root : Path) (names : Location) (valid : IsEntryName name) :
    pathFor (root.below (names ++ [name])) defaultSuffix =
      .ok (root.below (names ++ [name ++ suffixBytes])) := by
  rw [pathFor, name_below, ← decode_saved,
    withName_below root names valid (isEntryName_saved valid).isPart]

theorem stem?_eq_some_iff {t ending stem : Text} :
    stem? t ending = some stem ↔
      t = stem ++ ending ∧ stem ≠ [] ∧ ('\n' : CodePoint) ∉ stem := by
  unfold stem?
  dsimp only
  constructor
  · intro cut
    split at cut
    · rename_i fits
      cases cut
      obtain ⟨front, rfl⟩ := List.isSuffixOf_iff_suffix.mp fits.1
      exact ⟨by simp, by simpa using fits.2⟩
    · cases cut
  · rintro ⟨rfl, written, line⟩
    simp [Text.endsWith, List.isSuffixOf_iff_suffix, written, line]

/-- The stem of a name has one line, and the suffix follows it, or the suffix and a newline. -/
theorem liveName?_eq_some_iff {t suffix stem : Text} :
    liveName? t suffix = some stem ↔
      (t = stem ++ suffix ∨ t = stem ++ (suffix ++ [('\n' : CodePoint)])) ∧
        stem ≠ [] ∧ ('\n' : CodePoint) ∉ stem := by
  rw [liveName?, Option.orElse_eq_orElse, Option.orElse_eq_or, Option.or_eq_some_iff,
    stem?_eq_some_iff, stem?_eq_some_iff]
  constructor
  · rintro (⟨same, line⟩ | ⟨-, same, line⟩)
    · exact ⟨.inl same, line⟩
    · exact ⟨.inr same, line⟩
  · rintro ⟨same | rfl, line⟩
    · exact .inl ⟨same, line⟩
    · refine .inr ⟨Option.eq_none_iff_forall_ne_some.mpr fun longer cut => ?_, rfl, line⟩
      -- The last newline would have to be in the longer stem.
      obtain ⟨same, -, oneLine⟩ := stem?_eq_some_iff.mp cut
      have newlines := congrArg (List.count ('\n' : CodePoint)) same
      simp only [List.count_append, List.count_eq_zero.mpr line.2, List.count_eq_zero.mpr oneLine,
        List.count_singleton_self] at newlines
      omega

/-- A path whose name is the name of a file and a suffix leads back to the file. -/
theorem livePath?_of_decode (root : Path) (names : Location)
    (part : Path.IsPart (Utf8.decode name)) (oneLine : 0x0A ∉ name) {full : EntryName}
    (validFull : IsEntryName full) {suffix : Text}
    (called : Utf8.decode full = Utf8.decode name ++ suffix) :
    livePath? (root.below (names ++ [full])) suffix =
      .ok (some (root.below (names ++ [name]))) := by
  have line : ('\n' : CodePoint) ∉ Utf8.decode name := by
    intro member
    apply oneLine
    rw [← Encoding.nameBytes_decode name]
    exact Encoding.mem_nameBytes member (by decide)
  rw [livePath?, name_below, called, liveName?_eq_some_iff.mpr ⟨.inl rfl, part.written, line⟩]
  simp only
  rw [withName_below root names validFull part]
  rfl

end Renewal.Backup
