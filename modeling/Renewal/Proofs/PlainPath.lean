import Renewal.Proofs.PathText
import Renewal.Proofs.Resolution

/-! # Paths in trees without links

Where there are no links, the text of a path alone tells the place it leads to (`World.placeOf`),
and the tree only decides whether it leads there. An entry below a directory is known by the path of
the directory and the names below it (`Path.below`).
-/

namespace Renewal

namespace Tree

variable {t : Tree} {longest links : Nat} {followLast : Bool} {here : Location}
  {names more : List EntryName} {found : Found}

/-- A tree without links. -/
def LinkFree (t : Tree) : Prop :=
  ∀ place target, t.get? place ≠ some (.link target)

/-- Where a name leads from a directory. -/
def stepTo (here : Location) (name : EntryName) : Location :=
  if name = dot then here else if name = dotDot then here.dropLast else here ++ [name]

/-- Where names lead from a directory. -/
def goTo (here : Location) (names : List EntryName) : Location :=
  names.foldl stepTo here

/-- Names can be followed: each stands in a directory, and none is too long. -/
def Passes (t : Tree) (longest : Nat) : Location → List EntryName → Prop
  | _, [] => True
  | here, name :: rest =>
    t.get? here = some .directory ∧ name.length ≤ longest ∧ t.Passes longest (stepTo here name) rest

theorem stepTo_dot (here : Location) : stepTo here dot = here := by
  simp [stepTo]

theorem stepTo_proper {name : EntryName} (proper : IsProper name) :
    stepTo here name = here ++ [name] := by
  rw [stepTo, if_neg proper.1, if_neg proper.2]

theorem goTo_append (here : Location) (names more : List EntryName) :
    goTo here (names ++ more) = goTo (goTo here names) more :=
  List.foldl_append

theorem goTo_proper (proper : ∀ name ∈ names, IsProper name) : goTo here names = here ++ names := by
  induction names generalizing here with
  | nil => simp [goTo]
  | cons name rest ih =>
    rw [goTo, List.foldl_cons, ← goTo, stepTo_proper (proper name List.mem_cons_self),
      ih fun name member => proper name (List.mem_cons_of_mem _ member)]
    simp

theorem goTo_filter (here : Location) (names : List EntryName) :
    goTo here (names.filter (· != dot)) = goTo here names := by
  induction names generalizing here with
  | nil => rfl
  | cons name rest ih =>
    by_cases stays : name = dot
    · rw [List.filter_cons_of_neg (by simpa using stays), ih, stays]
      exact congrArg (goTo · rest) (stepTo_dot here).symm
    · rw [List.filter_cons_of_pos (by simpa using stays)]
      exact ih (stepTo here name)

theorem passes_append : t.Passes longest here (names ++ more) ↔
    t.Passes longest here names ∧ t.Passes longest (goTo here names) more := by
  induction names generalizing here with
  | nil => simp [Passes, goTo]
  | cons name rest ih =>
    rw [List.cons_append, Passes, Passes, ih]
    simp only [and_assoc]
    rfl

theorem Trail.passes (free : t.LinkFree)
    (trail : Trail t longest followLast links here names found) :
    t.Passes longest here names ∧ found = ⟨goTo here names, t.get? (goTo here names)⟩ := by
  induction trail with
  | nil => exact ⟨trivial, rfl⟩
  | @dot _ here rest _ directory fits _ ih =>
    refine ⟨⟨directory, fits, ?_⟩, ?_⟩
    · rw [stepTo_dot]
      exact ih.1
    · rw [goTo, List.foldl_cons, ← goTo, stepTo_dot]
      exact ih.2
  | up directory fits _ ih => exact ⟨⟨directory, fits, ih.1⟩, ih.2⟩
  | enter directory fits proper _ _ ih =>
    refine ⟨⟨directory, fits, ?_⟩, ?_⟩
    · rw [stepTo_proper proper]
      exact ih.1
    · rw [goTo, List.foldl_cons, ← goTo, stepTo_proper proper]
      exact ih.2
  | stop directory fits proper _ =>
    refine ⟨⟨directory, fits, trivial⟩, ?_⟩
    rw [goTo_proper (by simpa using proper)]
  | hold _ _ _ entry | link _ _ _ entry => exact absurd entry (free _ _)

/-- Without links names that can be followed lead where they say. -/
theorem Passes.trail (free : t.LinkFree) (passes : t.Passes longest here names) :
    Trail t longest followLast links here names ⟨goTo here names, t.get? (goTo here names)⟩ := by
  induction names generalizing here with
  | nil => exact .nil
  | cons name rest ih =>
    obtain ⟨directory, fits, onward⟩ := passes
    have trail := ih onward
    rw [goTo, List.foldl_cons, ← goTo]
    by_cases stays : name = dot
    · subst stays
      rw [stepTo_dot] at trail ⊢
      exact .dot directory fits trail
    by_cases up : name = dotDot
    · subst up
      exact .up directory fits trail
    rw [stepTo_proper ⟨stays, up⟩] at trail ⊢
    by_cases inside : t.get? (here ++ [name]) = some .directory
    · exact .enter directory fits ⟨stays, up⟩ inside trail
    cases rest with
    | nil => exact .stop directory fits ⟨stays, up⟩ ⟨inside, free _⟩
    | cons next rest => exact absurd trail.directory_of_cons inside

/-- Without links a path that can be followed leads where its names say. -/
theorem followLinks_linkFree (free : t.LinkFree) :
    t.followLinks longest followLast links here names = .ok found ↔
      t.Passes longest here names ∧ found = ⟨goTo here names, t.get? (goTo here names)⟩ := by
  rw [followLinks_eq_ok_iff]
  refine ⟨fun trail => trail.passes free, ?_⟩
  rintro ⟨passes, rfl⟩
  exact passes.trail free

theorem Passes.mono {longest' : Nat} (le : longest ≤ longest')
    (passes : t.Passes longest here names) : t.Passes longest' here names := by
  induction names generalizing here with
  | nil => trivial
  | cons name rest ih => exact ⟨passes.1, passes.2.1.trans le, ih passes.2.2⟩

/-- The names of an entry can be followed to it, if they are not too long. -/
theorem passes_of_present (closed : t.Closed) (proper : ∀ name ∈ names, IsProper name)
    (present : (t.get? (here ++ names)).isSome) : ∃ longest, t.Passes longest here names := by
  induction names generalizing here with
  | nil => exact ⟨0, trivial⟩
  | cons name rest ih =>
    have directory := closed.directory_of_below (List.cons_ne_nil name rest) present
    have step : stepTo here name = here ++ [name] := stepTo_proper (proper name List.mem_cons_self)
    have onward : (t.get? (here ++ [name] ++ rest)).isSome := by simpa using present
    obtain ⟨longest, passes⟩ :=
      ih (fun name member => proper name (List.mem_cons_of_mem _ member)) onward
    refine ⟨max name.length longest, directory, Nat.le_max_left _ _, ?_⟩
    rw [step]
    exact passes.mono (Nat.le_max_right _ _)

/-- Without links only the length of a name can stop one on a way through directories. -/
theorem followLinks_passes {longest' : Nat} (free : t.LinkFree)
    (passes : t.Passes longest' here names) :
    (∃ found, t.followLinks longest followLast links here names = .ok found) ∨
      t.followLinks longest followLast links here names = .error .nameTooLong := by
  induction names generalizing here with
  | nil => exact .inl ⟨_, followLinks_nil⟩
  | cons name rest ih =>
    obtain ⟨directory, -, onward⟩ := passes
    by_cases fits : name.length ≤ longest
    · have reach := ih onward
      by_cases stays : name = dot
      · subst stays
        rw [stepTo_dot] at reach
        rwa [followLinks_dot directory fits]
      by_cases up : name = dotDot
      · subst up
        rwa [followLinks_dotDot directory fits]
      rw [stepTo_proper ⟨stays, up⟩] at reach onward
      cases rest with
      | nil => exact .inl ⟨_, followLinks_last directory fits ⟨stays, up⟩ (free _)⟩
      | cons next rest => rwa [followLinks_enter directory fits ⟨stays, up⟩ onward.1]
    · exact .inr (followLinks_long directory (not_le.mp fits))

/-- What can be the name of an entry. -/
structure IsEntryName (name : EntryName) : Prop where
  written : name ≠ []
  uncut : slash ∉ name
  notNull : 0 ∉ name
  proper : IsProper name

theorem isPart_decode {name : EntryName} (written : name ≠ []) (notDot : name ≠ dot)
    (uncut : slash ∉ name) : Path.IsPart (Utf8.decode name) where
  written none := written (by rw [← Encoding.nameBytes_decode name, none]; rfl)
  notDot same := notDot (by rw [← Encoding.nameBytes_decode name, same]; decide)
  uncut member := by
    apply uncut
    rw [← Encoding.nameBytes_decode name]
    exact Encoding.mem_nameBytes member (by decide)

theorem IsEntryName.isPart {name : EntryName} (valid : IsEntryName name) :
    Path.IsPart (Utf8.decode name) :=
  isPart_decode valid.written valid.proper.1 valid.uncut

end Tree

namespace World

open Renewal.Tree

variable {w : World} {text : Text} {followLast : Bool} {found : Found}

/-- A path ends with a proper name, which stands at a place in a directory. -/
structure Stands (w : World) (text : Text) (place : Location) : Prop where
  finds : ∃ entry, w.find text false = .ok ⟨place, entry⟩
  named : Path.ending text ≠ []
  proper : IsProper (Encoding.nameBytes (Path.ending text))
  around : ∃ around, place = around ++ [Encoding.nameBytes (Path.ending text)] ∧
    w.tree.get? around = some .directory

/-- A path to nothing ends with the name of what is missing. -/
theorem stands_of_missing {place : Location} (closed : w.tree.Closed)
    (missing : w.find text false = .ok ⟨place, none⟩) : w.Stands text place := by
  obtain ⟨written, -, leads⟩ := find_eq_ok_iff.mp missing
  obtain ⟨names, cut⟩ := Path.exists_pathNames (mt nameBytes_eq_nil_iff.mpr written)
  rw [cut] at leads
  obtain ⟨proper, around, same⟩ := closed.last_of_followLinks leads
  have named : Path.ending text ≠ [] := fun none => proper.1 (if_pos none)
  rw [if_neg named] at proper same
  exact ⟨⟨none, missing⟩, named, proper, around, same⟩

theorem stands_of_lastPlace {place : Location}
    (places : FileSystem.lastPlace w text = .ok place) : w.Stands text place := by
  have finds := FileSystem.find_of_lastPlace places
  obtain ⟨written, -, names, last, around, cut, proper, -, rfl, leads⟩ :=
    FileSystem.lastPlace_eq_ok_iff.mp places
  obtain ⟨front, ends⟩ := Path.exists_pathNames (mt nameBytes_eq_nil_iff.mpr written)
  obtain ⟨-, same⟩ := List.append_inj' (cut.symm.trans ends) rfl
  obtain rfl := List.singleton_inj.mp same
  have named : Path.ending text ≠ [] := fun none => proper.1 (if_pos none)
  rw [if_neg named] at proper finds ⊢
  exact ⟨⟨_, finds⟩, named, proper, around, rfl, (entry_of_followLinks leads).symm⟩

/-- The place that a path leads to in a world without links. -/
def placeOf (w : World) (p : Path) : Location :=
  goTo (if p.root = .relative then w.directory else []) (p.names.map Encoding.nameBytes)

theorem placeOf_congr {v : World} (directory : v.directory = w.directory) (p : Path) :
    v.placeOf p = w.placeOf p := by
  rw [placeOf, placeOf, directory]

/-- The names on the way that a text tells, dots apart, are those of its path. -/
theorem filter_pathNames (text : Text) :
    (pathNames (Encoding.nameBytes text)).filter (· != dot) =
      (Path.ofText text).names.map Encoding.nameBytes := by
  have kept : (fun name => ((· != dot) ∘ Encoding.nameBytes) name && !name.isEmpty) =
      fun name : Text => !name.isEmpty && name != ("." : Text) := by
    funext name
    rw [Function.comp_apply, Bool.and_comm, Bool.eq_iff_iff]
    simp [nameBytes_eq_dot_iff]
  rw [Path.pathNames_nameBytes, List.filter_append, List.filter_map, List.filter_filter, kept,
    Path.ofText, Path.namesOf]
  split <;> simp

/-- Dots and slashes at the end do not change where a text leads. -/
theorem goTo_pathNames (w : World) (text : Text) :
    goTo (pathStart w.directory (Encoding.nameBytes text)) (pathNames (Encoding.nameBytes text)) =
      w.placeOf (Path.ofText text) := by
  rw [← goTo_filter, filter_pathNames, Path.pathStart_nameBytes]
  rfl

theorem find_linkFree (free : w.tree.LinkFree) (finds : w.find text followLast = .ok found) :
    found = ⟨w.placeOf (Path.ofText text), w.tree.get? (w.placeOf (Path.ofText text))⟩ := by
  rw [← goTo_pathNames]
  exact ((followLinks_linkFree free).mp (find_eq_ok_iff.mp finds).2.2).2

end World

namespace FileSystem

open Renewal.Tree World

variable {w : World} {text : Text} {place : Location}

/-- The last place of a path has the name with which the path ends. -/
theorem last_of_lastPlace (places : lastPlace w text = .ok place) :
    IsProper (Encoding.nameBytes (Path.ending text)) ∧
      ∃ around, place = around ++ [Encoding.nameBytes (Path.ending text)] := by
  obtain ⟨written, -, names, last, around, cut, proper, -, rfl, -⟩ :=
    lastPlace_eq_ok_iff.mp places
  obtain ⟨names', cut'⟩ := Path.exists_pathNames (mt nameBytes_eq_nil_iff.mpr written)
  obtain ⟨-, sameLast⟩ := List.append_inj' (cut.symm.trans cut') rfl
  obtain rfl := List.singleton_inj.mp sameLast
  have ends : Path.ending text ≠ [] := fun none => proper.1 (if_pos none)
  rw [if_neg ends] at proper ⊢
  exact ⟨proper, around, rfl⟩

theorem lastPlace_linkFree (free : w.tree.LinkFree) (places : lastPlace w text = .ok place) :
    place = w.placeOf (Path.ofText text) := by
  obtain ⟨-, -, names, last, around, cut, proper, -, rfl, leads⟩ := lastPlace_eq_ok_iff.mp places
  obtain ⟨-, same⟩ := (followLinks_linkFree free).mp leads
  injection same with same
  rw [← goTo_pathNames, cut, goTo_append, ← same, goTo_proper (by simpa using proper)]

end FileSystem

namespace Path

open Renewal.Tree
open FileSystem (isPath)

variable {root : Path} {names : Location} {name : EntryName}

/-- The path of an entry by the names below a directory. -/
def below (root : Path) (names : Location) : Path :=
  ⟨root.root, root.names ++ names.map Utf8.decode⟩

/-- The text by which a walk knows a directory below its root. -/
def directoryText (root : Path) (names : Location) : Text :=
  names.foldl (fun directory name => Walker.join directory (Utf8.decode name)) root.text

theorem below_injective (root : Path) : Function.Injective root.below := by
  intro names others same
  have sameNames := congrArg Path.names same
  exact List.map_injective_iff.mpr Encoding.decode_injective (List.append_cancel_left sameNames)

theorem Clean.below (clean : root.Clean) (valid : ∀ name ∈ names, IsEntryName name) :
    (root.below names).Clean := by
  intro part member
  rcases List.mem_append.mp member with member | member
  · exact clean part member
  · obtain ⟨name, inside, rfl⟩ := List.mem_map.mp member
    exact (valid name inside).isPart

theorem text_ne_nil (p : Path) (clean : p.Clean) : p.text ≠ [] := by
  intro none
  have read := ofText_text clean
  rw [none] at read
  rw [← read] at none
  exact absurd none (by decide)

theorem directoryText_concat (root : Path) (names : Location) (name : EntryName) :
    root.directoryText (names ++ [name]) =
      Walker.join (root.directoryText names) (Utf8.decode name) := by
  simp [directoryText]

theorem directoryText_ne_nil (clean : root.Clean) (names : Location) :
    root.directoryText names ≠ [] := by
  induction names using List.reverseRecOn with
  | nil => exact root.text_ne_nil clean
  | append_singleton front name ih =>
    rw [directoryText_concat]
    unfold Walker.join
    split
    · simp [ih]
    · simp [Text.concat, ih]

theorem ofText_directoryText (clean : root.Clean) (valid : ∀ name ∈ names, IsEntryName name) :
    ofText (root.directoryText names) = root.below names := by
  induction names using List.reverseRecOn with
  | nil => simpa [below, directoryText] using ofText_text clean
  | append_singleton front name ih =>
    rw [directoryText_concat, ofText_join (directoryText_ne_nil clean front)
      (valid name (by simp)).isPart, ih fun name member => valid name (by simp [member])]
    simp [below]

/-- A text is a path if each of its names is one. -/
theorem isPath_text (p : Path) : isPath p.text = p.names.all isPath := by
  have joined : ∀ names : List Text, isPath (Text.joinWith [separator] names) =
      names.all isPath := by
    intro names
    induction names with
    | nil => rfl
    | cons name rest ih =>
      cases rest with
      | nil => simp [Text.joinWith]
      | cons next others =>
        rw [List.all_cons, ← ih]
        simp only [isPath, Text.joinWith, List.intersperse_cons_cons, List.flatten_cons,
          List.all_append]
        rw [show List.all [separator] Encoding.isNameable = true from by decide, Bool.true_and]
  by_cases none : p.names = []
  · obtain ⟨root, names⟩ := p
    subst none
    cases root <;> decide
  · have plain : isPath p.root.text = true := by
      cases p.root <;> decide
    rw [text_eq none, isPath, List.all_append]
    exact (congrArg (· && _) plain).trans (joined p.names)

/-- Names of entries can stand in a path. -/
theorem isPath_decode {name : EntryName} (valid : IsEntryName name) :
    isPath (Utf8.decode name) = true := by
  refine List.all_eq_true.mpr fun c member => ?_
  rw [Encoding.isNameable, Utf8.isSome_encodeOne_of_mem member, Bool.and_true, bne_iff_ne]
  intro zero
  refine valid.notNull ?_
  rw [← Encoding.nameBytes_decode name]
  refine Encoding.mem_nameBytes member ?_
  rw [Encoding.codeBytes_of_lt (by rw [zero]; decide), zero]
  decide

theorem isPath_below (written : isPath root.text = true)
    (valid : ∀ name ∈ names, IsEntryName name) : isPath (root.below names).text = true := by
  rw [isPath_text] at written ⊢
  rw [below, List.all_append, written, Bool.true_and, List.all_eq_true]
  intro name member
  obtain ⟨bytes, inside, rfl⟩ := List.mem_map.mp member
  exact isPath_decode (valid bytes inside)

/-- The text of a path ends with its last name. -/
theorem text_below_concat (root : Path) (names : Location) :
    ∃ lead, ∀ name, (root.below (names ++ [name])).text = lead ++ Utf8.decode name := by
  have joined : ∀ (front : List Text) (last : Text), Text.joinWith [separator] (front ++ [last]) =
      front.flatMap (· ++ [separator]) ++ last := by
    intro front last
    induction front with
    | nil => simp [Text.joinWith]
    | cons part rest ih =>
      obtain ⟨next, others, same⟩ : ∃ next others, rest ++ [last] = next :: others :=
        List.exists_cons_of_ne_nil (by simp)
      rw [List.cons_append, same, List.flatMap_cons]
      rw [same] at ih
      simp only [Text.joinWith, List.intersperse_cons_cons, List.flatten_cons] at ih ⊢
      rw [ih]
      simp
  refine ⟨root.root.text ++ (root.names ++ names.map Utf8.decode).flatMap (· ++ [separator]),
    fun name => ?_⟩
  rw [text_eq (by simp [below]), List.append_assoc, ← joined]
  simp [below]

end Path

namespace World

open Renewal.Tree

variable {w : World} {root : Path} {names : Location} {name : EntryName} {found : Found}

theorem map_nameBytes_below (root : Path) (names : Location) :
    (root.below names).names.map Encoding.nameBytes =
      root.names.map Encoding.nameBytes ++ names := by
  have bytes : (names.map Utf8.decode).map Encoding.nameBytes = names := by
    rw [List.map_map]
    exact (List.map_congr_left fun name _ => Encoding.nameBytes_decode name).trans (List.map_id _)
  rw [Path.below, List.map_append, bytes]

theorem placeOf_below (w : World) (root : Path) (valid : ∀ name ∈ names, IsEntryName name) :
    w.placeOf (root.below names) = w.placeOf root ++ names := by
  rw [placeOf, map_nameBytes_below, goTo_append,
    goTo_proper fun name member => (valid name member).proper]
  rfl

/-- A path to an entry below a directory leads there, if anywhere. -/
theorem find_below (free : w.tree.LinkFree) (clean : root.Clean)
    (valid : ∀ name ∈ names, IsEntryName name) {followLast : Bool}
    (finds : w.find (root.below names).text followLast = .ok found) :
    found = ⟨w.placeOf root ++ names, w.tree.get? (w.placeOf root ++ names)⟩ := by
  have same := find_linkFree free finds
  rwa [Path.ofText_text (clean.below valid), placeOf_below w root valid] at same

theorem find_directoryText (free : w.tree.LinkFree) (clean : root.Clean)
    (valid : ∀ name ∈ names, IsEntryName name)
    (finds : w.find (root.directoryText names) = .ok found) :
    found = ⟨w.placeOf root ++ names, w.tree.get? (w.placeOf root ++ names)⟩ := by
  have same := find_linkFree free finds
  rwa [Path.ofText_directoryText clean valid, placeOf_below w root valid] at same

/-- A path to an entry that leads somewhere has a last place, and so has one with a shorter
name. -/
theorem lastPlace_below (free : w.tree.LinkFree) (clean : root.Clean)
    (valid : ∀ part ∈ names ++ [name], IsEntryName part) (more : EntryName)
    (validMore : IsEntryName (name ++ more)) {followLast : Bool}
    (finds : w.find (root.below (names ++ [name ++ more])).text followLast = .ok found) :
    FileSystem.lastPlace w (root.below (names ++ [name])).text =
      .ok (w.placeOf root ++ names ++ [name]) := by
  have validLong : ∀ part ∈ names ++ [name ++ more], IsEntryName part := by
    intro part member
    rcases List.mem_append.mp member with member | member
    · exact valid part (List.mem_append_left _ member)
    · rw [List.mem_singleton.mp member]
      exact validMore
  have start : ∀ below, (∀ part ∈ below, IsEntryName part) →
      pathStart w.directory (Encoding.nameBytes (root.below below).text) =
        if root.root = .relative then w.directory else [] := by
    intro below valid
    have read := congrArg Path.root (Path.ofText_text (clean.below valid))
    rw [Path.pathStart_nameBytes]
    exact congrArg (fun kind => if kind = .relative then w.directory else []) read
  obtain ⟨-, short, leads⟩ := find_eq_ok_iff.mp finds
  obtain ⟨passes, -⟩ := (followLinks_linkFree free).mp leads
  rw [Path.pathNames_text (clean.below validLong) (by simp [Path.below]), map_nameBytes_below,
    ← List.append_assoc, passes_append, start _ validLong] at passes
  obtain ⟨front, directory, fits, -⟩ := passes
  rw [List.length_append] at fits
  obtain ⟨lead, text⟩ := root.text_below_concat names
  have bytes : ∀ name, (Encoding.nameBytes (root.below (names ++ [name])).text).length =
      (Encoding.nameBytes lead).length + name.length := by
    intro name
    rw [text, Encoding.nameBytes_append, Encoding.nameBytes_decode, List.length_append]
  rw [bytes, List.length_append] at short
  have place : goTo (if root.root = .relative then w.directory else [])
      (root.names.map Encoding.nameBytes ++ names) = w.placeOf root ++ names := by
    rw [goTo_append, goTo_proper fun part member =>
      (valid part (List.mem_append_left _ member)).proper]
    rfl
  refine FileSystem.lastPlace_eq_ok_iff.mpr ⟨?_, ?_, root.names.map Encoding.nameBytes ++ names,
    name, w.placeOf root ++ names, ?_, (valid name (by simp)).proper, by omega, rfl, ?_⟩
  · exact mt nameBytes_eq_nil_iff.mp (Path.text_ne_nil _ (clean.below valid))
  · rw [bytes]
    omega
  · rw [Path.pathNames_text (clean.below valid) (by simp [Path.below]), map_nameBytes_below,
      List.append_assoc]
  · rw [start _ valid, followLinks_linkFree free, ← place]
    exact ⟨front, by rw [directory]⟩

/-- Only its length can keep a path from leading to an entry below a directory. -/
theorem find_below_of_present (free : w.tree.LinkFree) (closed : w.tree.Closed)
    (clean : root.Clean) (start : w.find root.text = .ok found)
    (valid : ∀ name ∈ names, IsEntryName name)
    (present : (w.tree.get? (w.placeOf root ++ names)).isSome) (followLast : Bool) :
    (∃ found, w.find (root.below names).text followLast = .ok found) ∨
      w.find (root.below names).text followLast = .error .nameTooLong := by
  have cleanBelow := clean.below valid
  have written : Encoding.nameBytes (root.below names).text ≠ [] :=
    mt nameBytes_eq_nil_iff.mp (Path.text_ne_nil _ cleanBelow)
  have begins : ∀ p : Path, p.Clean → p.root = root.root →
      pathStart w.directory (Encoding.nameBytes p.text) =
        if root.root = .relative then w.directory else [] := by
    intro p clean same
    rw [Path.pathStart_nameBytes, ← same]
    exact congrArg (fun kind => if kind = .relative then w.directory else [])
      (congrArg Path.root (Path.ofText_text clean))
  -- The names of the root can be followed, and each name after them stands in a directory.
  have front : w.tree.Passes w.limits.name (if root.root = .relative then w.directory else [])
      (root.names.map Encoding.nameBytes) := by
    by_cases none : root.names = []
    · rw [none]
      trivial
    · obtain ⟨-, -, leads⟩ := find_eq_ok_iff.mp start
      obtain ⟨passes, -⟩ := (followLinks_linkFree free).mp leads
      rwa [begins root clean rfl, Path.pathNames_text clean none] at passes
  obtain ⟨longest, back⟩ := passes_of_present closed
    (fun name member => (valid name member).proper) present
  have whole : w.tree.Passes (max w.limits.name longest)
      (if root.root = .relative then w.directory else [])
      (root.names.map Encoding.nameBytes ++ names) :=
    passes_append.mpr ⟨front.mono (Nat.le_max_left _ _), back.mono (Nat.le_max_right _ _)⟩
  unfold find resolve
  rw [if_neg (by simpa using written), begins _ cleanBelow rfl]
  split
  · exact .inr rfl
  by_cases none : (root.below names).names = []
  · obtain ⟨bare, rfl⟩ : root.names = [] ∧ names = [] := by simpa [Path.below] using none
    have same : root.below [] = root := by simp [Path.below]
    obtain ⟨-, -, leads⟩ := find_eq_ok_iff.mp start
    obtain ⟨passes, -⟩ := (followLinks_linkFree free).mp leads
    rw [begins root clean rfl] at passes
    rw [same]
    exact followLinks_passes free passes
  · rw [Path.pathNames_text cleanBelow none, map_nameBytes_below]
    exact followLinks_passes free whole

end World

end Renewal
